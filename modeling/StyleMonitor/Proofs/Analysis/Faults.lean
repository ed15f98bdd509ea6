import Mathlib.Data.Prod.Lex
import StyleMonitor.Proofs.Analysis.Run

/-!
# Which failures an analysis gives up on

Most of what can go wrong during an analysis is attended to on the spot. Three things are not: the
directory of the report cannot be made, the container's run does not succeed, and the report is
there but cannot be read. `faulted_of_step` and `faulted_afterReply` say so step by step. Every step
takes an analysis nearer to its end, which `rank` measures.
-/

namespace StyleMonitor

/-! ### Sessions that always have an answer -/

namespace Session

variable {α : Type} {path : String}

/-- Whether a session has an answer, whichever of its calls are refused. -/
def Answers (session : Session α) : Prop :=
  ∀ disk, Ensures session disk (fun _ _ => True) fun _ => False

theorem Answers.apply {session : Session α} (answers : Answers session) (volume : Volume) :
    ∃ answer later, session volume = (.ok answer, later) := by
  obtain ⟨answer, later, ran, -⟩ := (answers volume.disk).apply volume
  exact ⟨answer, later, ran⟩

theorem recoverBackup_answers (path : String) : Answers (recoverBackup path) := by
  intro disk
  refine .bind (.isThere (fun _ => .pure trivial) ?_)
  refine .bind (.isThere (fun _ => ?_) (.pure trivial))
  exact .ignoring fun _ => by split <;> trivial

theorem attempt_answers (session : Session α) : Answers (attempt session) := by
  intro disk
  refine .attempt fun refusals => ?_
  split
  · trivial
  · exact fun _ => trivial

theorem Answers.bind {β : Type} {session : Session α} {next : α → Session β}
    (answers : Answers session) (rest : ∀ answer, Answers (next answer)) :
    Answers (session >>= next) := by
  intro disk
  exact .bind ((answers disk).mono (fun answer disk _ => rest answer disk) fun _ no => no)

theorem pure_answers (answer : α) : Answers (pure answer) :=
  fun _ => .pure trivial

end Session

open Session in
/-- A table that cannot be read is an empty one. -/
theorem Freshness.last?_answers (pulls : Freshness) (key : String) : Answers (pulls.last? key) := by
  cases pulls with
  | memory => exact pure_answers _
  | file path =>
    refine .bind (.bind (recoverBackup_answers path) fun _ => ?_) fun _ => pure_answers _
    refine .bind (attempt_answers _) fun result => ?_
    cases result with
    | ok text => exact pure_answers _
    | error failure => exact pure_answers _

/-! ### The container's run -/

namespace Container

/-- What becomes of a stage that waits for no command. -/
inductive Stage.Advance (job : Job) (volume : Volume) : Stage → Stage → Prop where
  | refuse {failure : Failure}
    (fails : (Session.makeDirectories job.directory volume).1 = .error failure) :
    Advance job volume .prepare (.ended (.error (.noDirectory job.directory failure)))
  | ready {check : Image.Check}
    (made : (Session.makeDirectories job.directory volume).1 = .ok ()) :
    Advance job volume .prepare (.image check .consult)
  | stale {check : Image.Check} :
    Advance job volume (.image check .consult) (.image check .pull)
  | fresh {check : Image.Check} : Advance job volume (.image check .consult) .run
  | recorded {check : Image.Check} :
    Advance job volume (.image check .record) (.image check .prune)
  | settled {check : Image.Check} {result : Except Image.PullFault Image.Status} :
    Advance job volume (.image check (.settled result)) .run
  | stay {result : Except Fault String} : Advance job volume (.ended result) (.ended result)

variable {settings : RunnerSettings} {job : Job} {current : String} {now : Instant}
  {pulls : Freshness} {volume : Volume} {stage : Stage}

theorem Stage.ofImage_ne_ended (check : Image.Check) (stage : Image.Stage)
    (result : Except Fault String) : ofImage check stage ≠ .ended result := by
  cases stage <;> nofun

open Session in
/-- A stage that waits for no command always goes on. -/
theorem Stage.advance_of_act (idle : stage.command? settings current job = none) :
    ∃ pulls' next later, stage.act settings job now pulls volume = (.ok (pulls', next), later) ∧
      stage.Advance job volume next := by
  cases stage with
  | prepare =>
    simp only [act, bind_apply, attempt_apply]
    cases made : (makeDirectories job.directory volume).1 with
    | error failure => exact ⟨_, _, _, rfl, .refuse made⟩
    | ok => exact ⟨_, _, _, rfl, .ready made⟩
  | image check stage =>
    cases stage with
    | consult =>
      obtain ⟨last, later, found⟩ := (pulls.last?_answers check.key).apply volume
      simp only [act, Image.Stage.act, bind_apply, found]
      cases last with
      | none => exact ⟨_, _, _, rfl, .stale⟩
      | some last =>
        by_cases fresh : Image.isFresh last check.now check.windowMillis = true
        · simp only [fresh, if_true]
          exact ⟨_, _, _, rfl, .fresh⟩
        · simp only [fresh]
          exact ⟨_, _, _, rfl, .stale⟩
    | record =>
      simp only [act, Image.Stage.act, bind_apply, attempt_apply]
      cases (pulls.record check.key check.now volume).1 with
      | ok => exact ⟨_, _, _, rfl, .recorded⟩
      | error => exact ⟨_, _, _, rfl, .recorded⟩
    | settled result => exact ⟨_, _, _, rfl, .settled⟩
    | pull | prune => cases idle
  | run => cases idle
  | ended result => exact ⟨_, _, _, rfl, .stay⟩

/-- How many steps and commands a run of the container has ahead at most. -/
def Stage.rank : Stage → Nat
  | .prepare => 9
  | .image _ .consult => 8
  | .image _ .pull => 7
  | .image _ .record => 6
  | .image _ .prune => 5
  | .image _ (.settled _) => 4
  | .run => 3
  | .ended _ => 2

end Container

namespace Analysis

variable {setup : AnalysisSetup} {root : String} {task : Nat} {analysis later : Analysis}
  {stage : Container.Stage} {shared after : Shared} {reply : Reply}

theorem advance_of_step
    (acts : (container stage).step setup root task shared = some (later, after)) :
    ∃ next, later = ofStage next ∧ stage.Advance (.on setup.runner root) shared.volume next := by
  have idle : (container stage).command? setup root shared = none := by
    cases waits : (container stage).command? setup root shared with
    | none => rfl
    | some command => simp [step, waits] at acts
  obtain ⟨pulls, next, volume, act, advance⟩ := Container.Stage.advance_of_act idle
  rw [step_of_act idle act] at acts
  cases acts
  exact ⟨next, rfl, advance⟩

/-! ### What an analysis gives up on -/

/-- Where analyses stand as long as nothing is known of their outcome that is not so. -/
def Regular : Analysis → Prop
  | container (.ended _) => False
  | release outcome => outcome.isCompleted = true ∨ outcome = .skipped .disabled
  | _ => True

theorem regular_ofStage (stage : Container.Stage) : (ofStage stage).Regular := by
  unfold ofStage
  split
  · trivial
  · trivial
  next unended _ =>
    cases stage with
    | ended result => cases result <;> simp_all
    | _ => trivial

theorem regular_of_step (acts : analysis.step setup root task shared = some (later, after)) :
    later.Regular := by
  cases turn_of_step acts with
  | advance => exact regular_ofStage _
  | drop => exact Or.inr rfl
  | complete => exact Or.inl rfl
  | _ => trivial

theorem regular_afterReply (waits : (analysis.command? setup root shared).isSome) :
    (analysis.afterReply setup root shared reply).Regular := by
  obtain ⟨stage, rfl⟩ := exists_stage_of_command waits
  exact regular_ofStage _

/-- Whether an analysis is bound to fail. -/
def Faulted : Analysis → Prop
  | fault _ | notify _ | ended (.failed _) => True
  | _ => False

/-- Whether something happens with the next step that an analysis gives up on: the directory of the
report cannot be made, or the report is there and cannot be read. -/
def Strikes (setup : AnalysisSetup) (root : String) (shared : Shared) : Analysis → Prop
  | container .prepare => ∃ failure,
    (Session.makeDirectories (setup.runner.reportDirectoryFor root) shared.volume).1 =
      .error failure
  | read path => ∃ failure,
    (Session.readText path (Exclusions.load root setup.ignoreFile shared.volume).2).1 =
      .error failure ∧ failure.isNotFound = false
  | _ => False

/-- Whether a command has ended well. -/
def succeeds : Reply → Bool
  | .ok output => output.exit.isSuccess
  | .error _ => false

/-- The container's run has faulted if it has ended without a report. -/
theorem faulted_ofStage (stage : Container.Stage) :
    (ofStage stage).Faulted ↔ ∃ why, stage = .ended (.error why) := by
  cases stage with
  | ended result => cases result <;> simp [ofStage, Faulted]
  | _ => simp [ofStage, Faulted]

/-- The report cannot be read for any reason but that it is not there. -/
theorem readReport_eq (setup : AnalysisSetup) (root path : String) (volume : Volume) :
    ∃ answer later, readReport setup root path volume = (.ok answer, later) ∧
      ((∃ why, answer = .error why) ↔ ∃ failure,
        (Session.readText path (Exclusions.load root setup.ignoreFile volume).2).1 =
          .error failure ∧ failure.isNotFound = false) := by
  obtain ⟨exclusions, middle, loaded⟩ := load_exclusions root setup.ignoreFile volume
  rw [loaded, readReport, Session.bind_ok loaded, Session.bind_apply, Report.load,
    Session.bind_apply, Session.attempt_apply]
  cases (Session.readText path middle).1 with
  | ok text => exact ⟨_, _, rfl, by simp⟩
  | error failure =>
    cases missing : failure.isNotFound with
    | true => exact ⟨_, _, by simp only [missing, if_true]; rfl, by simp [missing]⟩
    | false => exact ⟨_, _, by simp only [missing]; rfl, by simp [missing]⟩

/-- While analyses are enabled, an analysis is bound to fail from the moment on at which something
happens that it gives up on. -/
theorem faulted_of_step (on : shared.enabled = true) (regular : analysis.Regular)
    (acts : analysis.step setup root task shared = some (later, after)) :
    later.Faulted ↔ analysis.Faulted ∨ analysis.Strikes setup root shared := by
  cases analysis with
  | container stage =>
    obtain ⟨next, rfl, advance⟩ := advance_of_step acts
    rw [faulted_ofStage]
    cases advance with
    | refuse fails => exact iff_of_true ⟨_, rfl⟩ (Or.inr ⟨_, fails⟩)
    | ready made =>
      refine iff_of_false nofun ?_
      rintro (no | ⟨failure, fails⟩)
      · exact no
      · cases made.symm.trans fails
    | stay => exact regular.elim
    | stale | fresh | recorded | settled => simp [Faulted, Strikes]
  | read path =>
    obtain ⟨answer, last, given, why⟩ := readReport_eq setup root path shared.volume
    simp only [step, onFiles, given] at acts
    cases answer with
    | ok findings =>
      cases acts
      simpa [Faulted, Strikes] using why
    | error message =>
      cases acts
      simpa [Faulted, Strikes] using why
  | release outcome =>
    cases acts
    rcases regular with completed | rfl
    · cases outcome with
      | completed => simp [Faulted, Strikes]
      | _ => cases completed
    · simp [Faulted, Strikes]
  | start | check | fault =>
    simp only [step, on, if_true] at acts
    cases acts
    simp [Faulted, Strikes]
  | clear | notify =>
    cases acts
    simp [Faulted, Strikes]
  | acquire =>
    simp only [step] at acts
    split at acts
    · cases acts
      simp [Faulted, Strikes]
    · cases acts
  | publish files =>
    cases files <;> cases acts <;> simp [Faulted, Strikes]
  | ended => cases acts

/-- Of the replies to its commands an analysis gives up on one only: the container's run does not
end well. -/
theorem faulted_afterReply (waits : (analysis.command? setup root shared).isSome) :
    (analysis.afterReply setup root shared reply).Faulted ↔
      analysis = .container .run ∧ succeeds reply = false := by
  obtain ⟨stage, rfl⟩ := exists_stage_of_command waits
  rw [afterReply, faulted_ofStage]
  cases stage with
  | run =>
    simp only [Container.Stage.afterReply, Container.Stage.afterRun]
    cases reply with
    | ok output => cases ends : output.exit.isSuccess <;> simp [succeeds, ends]
    | error failure => cases late : failure.isTimeout <;> simp [succeeds, late]
  | image check stage =>
    refine iff_of_false ?_ (by simp)
    rintro ⟨why, equal⟩
    exact Container.Stage.ofImage_ne_ended _ _ _ equal
  | _ => cases waits

/-- Whether an analysis ends without having completed or failed. -/
def Dropped : Analysis → Prop
  | release outcome | ended outcome =>
    (∀ total, outcome ≠ .completed total) ∧ ∀ message, outcome ≠ .failed message
  | _ => False

theorem not_dropped_ofStage (stage : Container.Stage) : ¬ (ofStage stage).Dropped := by
  unfold ofStage
  split <;> exact id

/-- While analyses are enabled, none is dropped. -/
theorem dropped_of_step (on : shared.enabled = true)
    (acts : analysis.step setup root task shared = some (later, after)) :
    later.Dropped ↔ analysis.Dropped := by
  cases analysis with
  | start | check | fault =>
    simp only [step, on, if_true] at acts
    cases acts
    simp [Dropped]
  | container stage =>
    obtain ⟨next, rfl, _⟩ := advance_of_step acts
    exact iff_of_false (not_dropped_ofStage _) id
  | clear | release | notify =>
    cases acts
    simp [Dropped]
  | read | acquire | publish =>
    cases turn_of_step acts <;> simp [Dropped]
  | ended => cases acts

/-- An analysis ends with a failure when it has told the user of it, and in no other way. -/
theorem failed_of_step {message : String} (regular : analysis.Regular)
    (acts : analysis.step setup root task shared = some (later, after)) :
    later = .ended (.failed message) ↔
      analysis = .ended (.failed message) ∨ analysis = .notify message := by
  cases analysis with
  | container stage =>
    obtain ⟨next, rfl, _⟩ := advance_of_step acts
    refine iff_of_false ?_ (by simp)
    unfold ofStage
    split <;> nofun
  | release outcome =>
    cases acts
    rcases regular with completed | rfl
    · cases outcome with
      | completed => simp
      | _ => cases completed
    · simp
  | notify other =>
    cases acts
    simp
  | ended => cases acts
  | _ => cases turn_of_step acts <;> simp

/-- The user is told of nothing but a failure. -/
theorem notes_of_step (acts : analysis.step setup root task shared = some (later, after))
    (quiet : ∀ message, analysis ≠ .notify message) : after.notes = shared.notes := by
  cases turn_of_step acts with
  | @fail _ message => exact absurd rfl (quiet message)
  | _ => rfl

/-! ### How far an analysis is from its end -/

/-- How far an analysis is from its end: the steps up to the reading of the report, and then the
steps after it, which depend on the findings. -/
def rank : Analysis → Nat ×ₗ Nat
  | start => toLex (11, 0)
  | clear => toLex (10, 0)
  | container stage => toLex (stage.rank, 0)
  | read _ => toLex (1, 0)
  | acquire findings => toLex (0, findings.files.length + 5)
  | check findings => toLex (0, findings.files.length + 4)
  | publish files _ => toLex (0, files.length + 3)
  | fault _ => toLex (0, 3)
  | notify _ => toLex (0, 2)
  | release _ => toLex (0, 2)
  | ended _ => toLex (0, 1)

theorem rank_ofStage_lt {stage next : Container.Stage} (less : next.rank < stage.rank) :
    (ofStage next).rank < (container stage).rank := by
  rw [Prod.Lex.lt_iff]
  left
  cases next with
  | ended result =>
    cases result <;> simp_all [ofStage, rank, Container.Stage.rank] <;> omega
  | _ => exact less

/-- Every step takes an analysis nearer to its end. -/
theorem rank_lt_of_step (regular : analysis.Regular)
    (acts : analysis.step setup root task shared = some (later, after)) :
    later.rank < analysis.rank := by
  by_cases contains : ∃ stage, analysis = container stage
  · obtain ⟨stage, rfl⟩ := contains
    obtain ⟨next, rfl, advance⟩ := advance_of_step acts
    cases advance with
    | stay => exact regular.elim
    | refuse | ready | stale | fresh | recorded | settled =>
      exact rank_ofStage_lt (by simp [Container.Stage.rank])
  · cases turn_of_step acts with
    | advance => exact absurd ⟨_, rfl⟩ contains
    | _ => simp [rank, Container.Stage.rank, Prod.Lex.lt_iff]

/-- Every reply takes an analysis nearer to its end. -/
theorem rank_afterReply_lt (waits : (analysis.command? setup root shared).isSome) :
    (analysis.afterReply setup root shared reply).rank < analysis.rank := by
  obtain ⟨stage, rfl⟩ := exists_stage_of_command waits
  refine rank_ofStage_lt ?_
  cases stage with
  | run => exact Nat.lt_succ_self 2
  | image check stage =>
    cases stage with
    | pull =>
      simp only [Container.Stage.afterReply, Image.Stage.afterReply, Image.Stage.afterPull]
      split <;> split <;> simp [Container.Stage.ofImage, Container.Stage.rank]
    | prune => exact Nat.lt_add_of_pos_right Nat.two_pos
    | _ => cases waits
  | _ => cases waits

/-- An analysis that has not ended makes a step, waits for a command, or waits for the lock on
publishing. -/
theorem step_or_waits (setup : AnalysisSetup) (root : String) (task : Nat) (shared : Shared)
    (unended : ∀ outcome, analysis ≠ ended outcome) :
    (∃ later after, analysis.step setup root task shared = some (later, after)) ∨
    (analysis.command? setup root shared).isSome ∨
    ((∃ findings, analysis = acquire findings) ∧ shared.publisher ≠ none) := by
  cases analysis with
  | ended outcome => exact absurd rfl (unended outcome)
  | container stage =>
    cases waits : ((container stage).command? setup root shared).isSome with
    | true => exact Or.inr (Or.inl rfl)
    | false =>
      left
      simp only [step, waits]
      exact ⟨_, _, rfl⟩
  | read path =>
    left
    simp only [step]
    split <;> exact ⟨_, _, rfl⟩
  | acquire findings =>
    cases free : shared.publisher with
    | none => exact Or.inl ⟨_, _, by simp only [step, free]; rfl⟩
    | some other => exact Or.inr (Or.inr ⟨⟨findings, rfl⟩, Option.some_ne_none _⟩)
  | publish files =>
    left
    cases files <;> exact ⟨_, _, rfl⟩
  | start | clear | check | release | fault | notify => exact Or.inl ⟨_, _, rfl⟩

end Analysis

end StyleMonitor
