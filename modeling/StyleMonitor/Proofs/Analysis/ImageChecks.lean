import StyleMonitor.Proofs.Analysis.Faults

/-!
# The check of the image during an analysis

An analysis checks its image once: it consults the record of pulls, pulls if the last one is a window
old, and records the pull. `step_consult` and `step_record` say what the two steps at the record do;
no other step touches it.
-/

namespace StyleMonitor

open Session

/-- When an image was last pulled, as the record has it. -/
def Shared.lastPull? (key : String) (shared : Shared) : Option Instant :=
  match (shared.pulls.last? key shared.volume).1 with
  | .ok last => last
  | .error _ => none

theorem Shared.lastPull?_memory {shared : Shared} {pulls : List (String × Instant)}
    (memory : shared.pulls = .memory pulls) (key : String) :
    shared.lastPull? key = pulls.lookup key := by
  rw [lastPull?, memory]
  rfl

namespace Image

variable {check : Check} {last : Option Instant}

/-- Whether a check finds that the image has to be pulled, given when that was done last. -/
def Check.isDue (check : Check) (last : Option Instant) : Bool :=
  last.all fun pulled => !isFresh pulled check.now check.windowMillis

/-- The image has to be pulled when the last pull is a window old. -/
theorem Check.isDue_iff : check.isDue last = true ↔ ∀ pulled, last = some pulled →
    pulled.nanos + check.windowMillis * Instant.perMilli ≤ check.now.nanos := by
  have length : 0 ≤ check.windowMillis * Instant.perMilli :=
    Int.mul_nonneg (Int.natCast_nonneg _) (by decide)
  cases last with
  | none => exact iff_of_true rfl nofun
  | some pulled =>
    simp only [Check.isDue, Option.all_some, isFresh, Option.some.injEq, forall_eq']
    rw [Bool.not_eq_true', Bool.or_eq_false_iff, decide_eq_false_iff_not, decide_eq_false_iff_not]
    omega

end Image

namespace Analysis

variable {setup : AnalysisSetup} {root : String} {task : Nat} {analysis later : Analysis}
  {shared after : Shared} {check : Image.Check} {stage : Image.Stage} {reply : Reply}

/-- The record is consulted: the image is pulled if it is due, and else the container is run. -/
theorem step_consult (setup : AnalysisSetup) (root : String) (task : Nat) (shared : Shared)
    (check : Image.Check) :
    ∃ volume, (container (.image check .consult)).step setup root task shared =
      some (if check.isDue (shared.lastPull? check.key) then container (.image check .pull)
        else container .run, { shared with volume }) := by
  obtain ⟨last, volume, found⟩ := (shared.pulls.last?_answers check.key).apply shared.volume
  have asked : shared.lastPull? check.key = last := by rw [Shared.lastPull?, found]
  have act : (Container.Stage.image check .consult).act setup.runner (.on setup.runner root)
      shared.clock shared.pulls shared.volume = (.ok (shared.pulls,
        if check.isDue last then .image check .pull else .run), volume) := by
    simp only [Container.Stage.act, Image.Stage.act, bind_apply, found]
    cases last with
    | none => rfl
    | some last =>
      cases fresh : Image.isFresh last check.now check.windowMillis <;>
        simp [Image.Check.isDue, fresh] <;> rfl
  refine ⟨volume, (step_of_act rfl act).trans ?_⟩
  rw [asked]
  split <;> rfl

/-- The pull is recorded, unless that fails. -/
theorem step_record (setup : AnalysisSetup) (root : String) (task : Nat) (shared : Shared)
    (check : Image.Check) :
    (container (.image check .record)).step setup root task shared =
      some (container (.image check .prune), { shared with
        volume := (shared.pulls.record check.key check.now shared.volume).2
        pulls := (shared.pulls.record check.key check.now shared.volume).1.toOption.getD
          shared.pulls }) := by
  have act : (Container.Stage.image check .record).act setup.runner (.on setup.runner root)
      shared.clock shared.pulls shared.volume =
        (.ok ((shared.pulls.record check.key check.now shared.volume).1.toOption.getD shared.pulls,
          .image check .prune), (shared.pulls.record check.key check.now shared.volume).2) := by
    simp only [Container.Stage.act, Image.Stage.act, bind_apply, attempt_apply]
    cases (shared.pulls.record check.key check.now shared.volume).1 <;> rfl
  exact step_of_act rfl act

/-- What a step at the container does: where it leads, and whether the record of pulls stays as it
is. -/
theorem act_cases {settings : RunnerSettings} {job : Container.Job} {now : Instant}
    {pulls kept : Freshness} {stage next : Container.Stage} {volume left : Volume}
    (acts : stage.act settings job now pulls volume = (.ok (kept, next), left)) :
    (stage = .prepare ∧ kept = pulls ∧ ((∃ why, next = .ended (.error why)) ∨
      next = .image ⟨settings.cacheKey, now, settings.cacheMillis⟩ .consult)) ∨
    (∃ check earlier later, stage = .image check earlier ∧ next = .ofImage check later ∧
      (kept = pulls ∨ earlier = .record)) ∨
    (kept = pulls ∧ next = stage) := by
  cases stage with
  | prepare =>
    simp only [Container.Stage.act, bind_apply, attempt_apply] at acts
    cases made : (makeDirectories job.directory volume).1 with
    | error failure =>
      rw [made] at acts
      cases acts
      exact Or.inl ⟨rfl, rfl, Or.inl ⟨_, rfl⟩⟩
    | ok =>
      rw [made] at acts
      cases acts
      exact Or.inl ⟨rfl, rfl, Or.inr rfl⟩
  | image check stage =>
    refine Or.inr (Or.inl ?_)
    simp only [Container.Stage.act, bind_apply] at acts
    rcases ran : stage.act check pulls volume with ⟨failure | ⟨held, later⟩, between⟩
    · rw [ran] at acts
      cases acts
    · rw [ran] at acts
      cases acts
      refine ⟨check, stage, later, rfl, rfl, ?_⟩
      cases stage with
      | record => exact Or.inr rfl
      | consult =>
        refine Or.inl ?_
        simp only [Image.Stage.act, bind_apply] at ran
        split at ran
        · split at ran
          · split at ran <;> cases ran <;> rfl
          · cases ran
            rfl
        · cases ran
      | pull | prune | settled =>
        cases ran
        exact Or.inl rfl
  | run | ended =>
    cases acts
    exact Or.inr (Or.inr ⟨rfl, rfl⟩)

theorem act_of_step {stage : Container.Stage}
    (acts : (container stage).step setup root task shared = some (later, after)) :
    ∃ pulls next volume, stage.act setup.runner (.on setup.runner root) shared.clock shared.pulls
        shared.volume = (.ok (pulls, next), volume) ∧
      later = ofStage next ∧ after = { shared with volume, pulls } := by
  have idle : (container stage).command? setup root shared = none := by
    cases waits : (container stage).command? setup root shared with
    | none => rfl
    | some command => simp [step, waits] at acts
  obtain ⟨pulls, next, volume, act, -⟩ := Container.Stage.advance_of_act idle
  rw [step_of_act idle act] at acts
  cases acts
  exact ⟨pulls, next, volume, act, rfl, rfl⟩

/-- Only a step that records a pull changes the record of pulls. -/
theorem pulls_of_step (acts : analysis.step setup root task shared = some (later, after))
    (other : ∀ check, analysis ≠ container (.image check .record)) :
    after.pulls = shared.pulls := by
  cases analysis with
  | container stage =>
    obtain ⟨pulls, next, volume, act, -, rfl⟩ := act_of_step acts
    rcases act_cases act with ⟨-, same, -⟩ | ⟨check, earlier, _, rfl, -, same | rfl⟩ | ⟨same, -⟩
    · exact same
    · exact same
    · exact absurd rfl (other check)
    · exact same
  | _ => cases turn_of_step acts <;> rfl

/-! ### Which checks are made -/

/-- Whether a check under way has the key and the window of the settings. -/
def Checks (settings : RunnerSettings) : Analysis → Prop
  | container (.image check _) =>
    check.key = settings.cacheKey ∧ check.windowMillis = settings.cacheMillis
  | _ => True

theorem checks_ofImage {settings : RunnerSettings}
    (known : (container (.image check stage)).Checks settings) (next : Image.Stage) :
    (ofStage (.ofImage check next)).Checks settings := by
  cases next with
  | settled => trivial
  | _ => exact known

theorem checks_ended (settings : RunnerSettings) (result : Except Container.Fault String) :
    (ofStage (.ended result)).Checks settings := by
  cases result <;> trivial

theorem checks_of_step (known : analysis.Checks setup.runner)
    (acts : analysis.step setup root task shared = some (later, after)) :
    later.Checks setup.runner := by
  cases analysis with
  | container stage =>
    obtain ⟨pulls, next, volume, act, rfl, -⟩ := act_of_step acts
    rcases act_cases act with
      ⟨-, -, ⟨why, rfl⟩ | rfl⟩ | ⟨check, earlier, next, rfl, rfl, -⟩ | ⟨-, rfl⟩
    · exact checks_ended _ _
    · exact ⟨rfl, rfl⟩
    · exact checks_ofImage known next
    · cases next with
      | ended result => exact checks_ended _ result
      | _ => exact known
  | clear =>
    cases acts
    trivial
  | _ => cases turn_of_step acts <;> trivial

theorem checks_afterReply (known : analysis.Checks setup.runner)
    (waits : (analysis.command? setup root shared).isSome) :
    (analysis.afterReply setup root shared reply).Checks setup.runner := by
  obtain ⟨stage, rfl⟩ := exists_stage_of_command waits
  cases stage with
  | image check stage => exact checks_ofImage known _
  | run => exact checks_ended _ _
  | _ => cases waits

/-! ### Where pulls come from -/

/-- Only a check that found the image due comes to a pull. -/
theorem consulted_of_step (acts : analysis.step setup root task shared =
      some (container (.image check .pull), after)) :
    analysis = container (.image check .consult) ∧
      check.isDue (shared.lastPull? check.key) = true := by
  have consulted : analysis = container (.image check .consult) := by
    cases analysis with
    | container stage =>
      obtain ⟨next, same, advance⟩ := advance_of_step acts
      cases advance with
      | stale =>
        cases same
        rfl
      | @stay result => cases result <;> cases same
      | _ => cases same
    | _ => cases turn_of_step acts
  obtain ⟨volume, turned⟩ := step_consult setup root task shared check
  rw [consulted, turned] at acts
  refine ⟨consulted, ?_⟩
  cases due : check.isDue (shared.lastPull? check.key) with
  | true => rfl
  | false =>
    rw [due] at acts
    cases acts

/-- No reply starts a pull. -/
theorem afterReply_ne_pull (waits : (analysis.command? setup root shared).isSome)
    (check : Image.Check) :
    analysis.afterReply setup root shared reply ≠ container (.image check .pull) := by
  obtain ⟨stage, rfl⟩ := exists_stage_of_command waits
  cases stage with
  | image own stage =>
    cases stage with
    | pull =>
      simp only [afterReply, Container.Stage.afterReply, Image.Stage.afterReply,
        Image.Stage.afterPull]
      split <;> split <;> rintro ⟨⟩
    | prune => rintro ⟨⟩
    | _ => cases waits
  | run =>
    simp only [afterReply, Container.Stage.afterReply]
    cases Container.Stage.afterRun setup.runner shared.volume.disk.currentPath
      (.on setup.runner root) reply <;> rintro ⟨⟩
  | _ => cases waits

/-- No step leads to where a pull is to be recorded. -/
theorem step_ne_record (acts : analysis.step setup root task shared = some (later, after))
    (check : Image.Check) : later ≠ container (.image check .record) := by
  rintro rfl
  cases analysis with
  | container stage =>
    obtain ⟨next, same, advance⟩ := advance_of_step acts
    cases advance with
    | @stay result => cases result <;> cases same
    | _ => cases same
  | _ => cases turn_of_step acts

/-- A pull is to be recorded when it has succeeded. -/
theorem pulled_of_afterReply (waits : (analysis.command? setup root shared).isSome)
    (records : analysis.afterReply setup root shared reply = container (.image check .record)) :
    analysis = container (.image check .pull) ∧ succeeds reply = true := by
  obtain ⟨stage, rfl⟩ := exists_stage_of_command waits
  cases stage with
  | image own stage =>
    cases stage with
    | pull =>
      simp only [afterReply, Container.Stage.afterReply, Image.Stage.afterReply,
        Image.Stage.afterPull] at records
      cases reply with
      | ok output =>
        cases ends : output.exit.isSuccess with
        | true =>
          simp only [ends] at records
          cases records
          exact ⟨rfl, ends⟩
        | false =>
          simp only [ends] at records
          cases records
      | error failure =>
        simp only at records
        split at records <;> cases records
    | prune => cases records
    | _ => cases waits
  | run =>
    simp only [afterReply, Container.Stage.afterReply] at records
    cases ran : Container.Stage.afterRun setup.runner shared.volume.disk.currentPath
      (.on setup.runner root) reply <;> rw [ran] at records <;> cases records
  | _ => cases waits

end Analysis

end StyleMonitor
