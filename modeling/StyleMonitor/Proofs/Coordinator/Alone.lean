import StyleMonitor.Coordinator.Timeline
import StyleMonitor.Proofs.Analysis.Run
import StyleMonitor.Proofs.Host

/-!
# An analysis on a timeline of its own

Where an analysis is the only task and nothing takes time, it goes on from its start to its end
without a break: its run of the container is that of the host, and what it shows is what its report
holds. Then the triggers that it served are answered, and nothing is left to be done.
-/

namespace StyleMonitor.Coordinator

variable {ρ : Type}

/-- Nothing takes time, no update breaks off, and the runtime takes no note of commands before it
carries them out. -/
structure Stage.Straight (stage : Stage ρ) : Prop where
  prompt : stage.runDelay = 0
  whole : stage.breakAt = none
  silent (command : Command) (state : ρ) : stage.note command state = state

namespace Timeline

variable {stage : Stage ρ} {line later : Timeline ρ} {id steps : Nat} {root : String}
  {waiters : List Nat} {phase : DrivePhase} {analysis next : Analysis} {shared after : Shared}
  {runtime : ρ}

/-- So many steps of a task take a timeline to another one. -/
def Leads (stage : Stage ρ) (id steps : Nat) (line later : Timeline ρ) : Prop :=
  ∀ fuel, goOn stage id (fuel + steps) line = goOn stage id fuel later

theorem Leads.refl (stage : Stage ρ) (id : Nat) (line : Timeline ρ) : Leads stage id 0 line line :=
  fun _ => rfl

theorem Leads.trans {more : Nat} {last : Timeline ρ} (first : Leads stage id steps line later)
    (second : Leads stage id more later last) : Leads stage id (steps + more) line last := by
  intro fuel
  rw [Nat.add_comm steps more, ← Nat.add_assoc, first, second]

/-- A timeline whose only task is the work on a root. -/
def alone (line : Timeline ρ) (id : Nat) (root : String) (waiters : List Nat) (phase : DrivePhase)
    (shared : Shared) (runtime : ρ) : Timeline ρ :=
  { line with
    state := { line.state with shared, tasks := [(id, .drive root waiters phase)] }
    runtime }

@[simp] theorem task?_alone :
    (line.alone id root waiters phase shared runtime).state.task? id =
      some (.drive root waiters phase) := by
  simp [alone, State.task?, Tasks.get?]

theorem happen_of_step {event : Event} {state : State}
    (acts : step stage.setup line.state event = some state) :
    happen stage event line = { line with state } := by
  rw [happen, acts]

/-- The only task makes a step of the work on its root. -/
theorem happen_step_alone {state : State}
    (acts : State.stepDrive stage.setup id root waiters
      (line.alone id root waiters phase shared runtime).state phase = some state) :
    happen stage (.step id) (line.alone id root waiters phase shared runtime) =
      { line with state, runtime } := by
  refine happen_of_step ?_
  simp only [step, task?_alone, Option.bind_some, State.stepTask, acts]

/-! ### Steps of the only task -/

/-- Whether the work on a root is to publish the findings of a file. -/
def publishing : DrivePhase → Bool
  | .analyze (.publish (_ :: _) _) => true
  | _ => false

/-- The only task makes its next step, if it waits for nothing. -/
theorem leads_of_stepDrive {state : State}
    (idle : (line.alone id root waiters phase shared runtime).state.commandOf? stage.setup
      (.drive root waiters phase) = none)
    (small : publishing phase = false)
    (acts : State.stepDrive stage.setup id root waiters
      (line.alone id root waiters phase shared runtime).state phase = some state) :
    Leads stage id 1 (line.alone id root waiters phase shared runtime)
      { line with state, runtime } := by
  intro fuel
  have one : stepOrPublish stage id (.drive root waiters phase)
      (line.alone id root waiters phase shared runtime) = { line with state, runtime } := by
    rw [← happen_step_alone acts]
    unfold stepOrPublish
    split
    · next equal =>
      cases equal
      cases small
    · rfl
  rw [goOn, task?_alone]
  simp only [idle, one]

/-- An analysis that waits for nothing makes its next step. -/
theorem leads_of_step (idle : analysis.command? stage.setup.analysis root shared = none)
    (small : publishing (.analyze analysis) = false)
    (acts : analysis.step stage.setup.analysis root id shared = some (next, after)) :
    Leads stage id 1 (line.alone id root waiters (.analyze analysis) shared runtime)
      (line.alone id root waiters (.analyze next) after runtime) := by
  have idle : (line.alone id root waiters (.analyze analysis) shared runtime).state.commandOf?
      stage.setup (.drive root waiters (.analyze analysis)) = none := idle
  refine leads_of_stepDrive idle small ?_
  cases analysis with
  | ended => cases acts
  | _ =>
    simp only [State.stepDrive, alone]
    rw [acts]
    simp [State.become, Tasks.update]

/-- The only task has its command carried out. -/
theorem reply_alone {command : Command}
    (waits : analysis.command? stage.setup.analysis root shared = some command) :
    reply stage id command (line.alone id root waiters (.analyze analysis) shared runtime) =
      line.alone id root waiters
        (.analyze (analysis.afterReply stage.setup.analysis root shared
          (stage.runtime command runtime shared.volume).1))
        { shared with volume := (stage.runtime command runtime shared.volume).2.2 }
        (stage.runtime command runtime shared.volume).2.1 := by
  refine happen_of_step ?_
  simp [step, alone, State.task?, Tasks.get?, waits, State.become, Tasks.update]

/-- A command is carried out at once. -/
theorem issue_eq (straight : stage.Straight) (ungated : line.gate = none) (id : Nat)
    (command : Command) : issue stage id command line = (true, reply stage id command line) := by
  have same : { line with runtime := stage.note command line.runtime } = line := by
    rw [straight.silent]
  rw [issue, same, if_pos straight.prompt, arrive, ungated]
  exact ite_self _

theorem leads_of_command (straight : stage.Straight) (ungated : line.gate = none)
    {command : Command}
    (waits : analysis.command? stage.setup.analysis root shared = some command) :
    Leads stage id 1 (line.alone id root waiters (.analyze analysis) shared runtime)
      (line.alone id root waiters
        (.analyze (analysis.afterReply stage.setup.analysis root shared
          (stage.runtime command runtime shared.volume).1))
        { shared with volume := (stage.runtime command runtime shared.volume).2.2 }
        (stage.runtime command runtime shared.volume).2.1) := by
  intro fuel
  have asks : (line.alone id root waiters (.analyze analysis) shared runtime).state.commandOf?
      stage.setup (.drive root waiters (.analyze analysis)) = some command := waits
  have shut : (line.alone id root waiters (.analyze analysis) shared runtime).gate = none := ungated
  rw [goOn, task?_alone]
  simp only [asks, issue_eq straight shut id command, if_true, reply_alone waits]

/-! ### The run of the container -/

/-- A stage of the container's run is followed by the next one as on a host. -/
theorem leads_of_stage (straight : stage.Straight) (ungated : line.gate = none)
    {at_ : Container.Stage} (unended : ∀ result, at_ ≠ .ended result) (host : Host ρ) :
    Leads stage id 1
      (line.alone id root waiters (.analyze (.ofStage at_))
        { shared with volume := host.volume, pulls := host.pulls } host.runtime)
      (let (next, later) := Host.stepRun stage.runtime stage.setup.analysis.runner
        (.on stage.setup.analysis.runner root) shared.clock at_ host
      line.alone id root waiters (.analyze (.ofStage next))
        { shared with volume := later.volume, pulls := later.pulls } later.runtime) := by
  have going : Analysis.ofStage at_ = .container at_ := by
    cases at_ with
    | ended own => exact absurd rfl (unended own)
    | _ => rfl
  rw [going]
  cases waits : at_.command? stage.setup.analysis.runner host.volume.disk.currentPath
      (.on stage.setup.analysis.runner root) with
  | some command =>
    rw [Host.stepRun_of_command waits]
    exact leads_of_command straight ungated waits
  | none =>
    obtain ⟨pulls, next, volume, acts, -⟩ : ∃ pulls next volume,
        at_.act stage.setup.analysis.runner (.on stage.setup.analysis.runner root) shared.clock
          host.pulls host.volume = (.ok (pulls, next), volume) ∧ _ :=
      Container.Stage.advance_of_act waits
    rw [Host.stepRun_of_act waits acts]
    exact leads_of_step waits rfl (Analysis.step_of_act waits acts)

/-- The container's run goes as on a host. -/
theorem leads_of_repeated (straight : stage.Straight) (ungated : line.gate = none)
    {result : Except Container.Fault String} {count : Nat} {at_ : Container.Stage}
    {host final : Host ρ}
    (runs : Host.repeated (Host.stepRun stage.runtime stage.setup.analysis.runner
      (.on stage.setup.analysis.runner root) shared.clock) count at_ host =
        (.ended result, final)) :
    ∃ steps ≤ count, Leads stage id steps
      (line.alone id root waiters (.analyze (.ofStage at_))
        { shared with volume := host.volume, pulls := host.pulls } host.runtime)
      (line.alone id root waiters (.analyze (.ofStage (.ended result)))
        { shared with volume := final.volume, pulls := final.pulls } final.runtime) := by
  induction count generalizing at_ host with
  | zero =>
    cases runs
    exact ⟨0, Nat.le_refl 0, .refl _ _ _⟩
  | succ count ih =>
    by_cases halted : ∃ own, at_ = .ended own
    · obtain ⟨own, rfl⟩ := halted
      rw [Host.repeated_ended] at runs
      cases runs
      exact ⟨0, Nat.zero_le _, .refl _ _ _⟩
    · rw [Host.repeated_succ] at runs
      obtain ⟨steps, few, rest⟩ := ih runs
      refine ⟨1 + steps, by omega, Leads.trans ?_ rest⟩
      exact leads_of_stage straight ungated (fun own ended => halted ⟨own, ended⟩) host

/-! ### Publishing -/

/-- The files that are left are published one after the other. -/
theorem publishEach_alone (straight : stage.Straight) (line : Timeline ρ) (id : Nat)
    (root : String) (waiters : List Nat) (shared : Shared) (runtime : ρ)
    (files : List (String × List Finding)) (total : Nat) :
    ∃ updates, publishEach stage id files
        (line.alone id root waiters (.analyze (.publish files total)) shared runtime) =
      { line with updates }.alone id root waiters (.analyze (.publish [] total))
        { shared with shown := files.foldl (Analysis.showing root) shared.shown } runtime := by
  induction files generalizing line shared with
  | nil => exact ⟨line.updates, rfl⟩
  | cons file rest ih =>
    obtain ⟨updates, later⟩ := ih { line with updates := line.updates + 1 }
      { shared with shown := Analysis.showing root shared.shown file }
    refine ⟨updates, ?_⟩
    have one : happen stage (.step id)
        ({ line with updates := line.updates + 1 }.alone id root waiters
          (.analyze (.publish (file :: rest) total)) shared runtime) =
        { line with updates := line.updates + 1 }.alone id root waiters
          (.analyze (.publish rest total))
          { shared with shown := Analysis.showing root shared.shown file } runtime := by
      rw [happen_step_alone]
      · rfl
      · simp [State.stepDrive, alone, Analysis.step, State.become, Tasks.update,
          Analysis.showing]
    rw [List.foldl_cons, ← later, ← one, publishEach]
    simp only [straight.whole]
    rfl

theorem leads_of_publish (straight : stage.Straight) (line : Timeline ρ) (id : Nat)
    (root : String) (waiters : List Nat) (shared : Shared) (runtime : ρ)
    (files : List (String × List Finding)) (total : Nat) :
    ∃ steps ≤ 1, ∃ updates, Leads stage id steps
      (line.alone id root waiters (.analyze (.publish files total)) shared runtime)
      ({ line with updates }.alone id root waiters (.analyze (.publish [] total))
        { shared with shown := files.foldl (Analysis.showing root) shared.shown } runtime) := by
  cases files with
  | nil => exact ⟨0, Nat.zero_le 1, line.updates, .refl _ _ _⟩
  | cons file rest =>
    obtain ⟨updates, published⟩ :=
      publishEach_alone straight line id root waiters shared runtime (file :: rest) total
    refine ⟨1, Nat.le_refl 1, updates, fun fuel => ?_⟩
    rw [← published, goOn, task?_alone]
    rfl

/-! ### From the start to the end -/

/-- A timeline on which a note was made. -/
def noted (line : Timeline ρ) (entry : Entry) : Timeline ρ :=
  { line with state := line.state.note entry }

theorem leads_of_ended (outcome : Outcome) :
    Leads stage id 1 (line.alone id root waiters (.analyze (.ended outcome)) shared runtime)
      ((line.noted (.ended root id outcome)).alone id root waiters (.answer outcome) shared
        runtime) := by
  have step : State.stepDrive stage.setup id root waiters
      (line.alone id root waiters (.analyze (.ended outcome)) shared runtime).state
        (.analyze (.ended outcome)) =
      some ((line.noted (.ended root id outcome)).alone id root waiters (.answer outcome) shared
        runtime).state := by
    simp [State.stepDrive, alone, noted, State.note, State.become, Tasks.update]
  exact leads_of_stepDrive rfl rfl step

theorem leads_of_answer (outcome : Outcome) :
    Leads stage id 1 (line.alone id root waiters (.answer outcome) shared runtime)
      ((line.noted (.answered root id waiters outcome)).alone id root [] .settle shared
        runtime) := by
  have step : State.stepDrive stage.setup id root waiters
      (line.alone id root waiters (.answer outcome) shared runtime).state (.answer outcome) =
      some ((line.noted (.answered root id waiters outcome)).alone id root [] .settle shared
        runtime).state := by
    simp [State.stepDrive, alone, noted, State.note, State.become, Tasks.update]
  exact leads_of_stepDrive rfl rfl step

/-- Where no other trigger waits for the root, the task is over. -/
theorem leads_of_settle {slots : Slots}
    (last : line.state.slots.finish root line.state.shutDown = (slots, none)) :
    Leads stage id 1 (line.alone id root waiters .settle shared runtime)
      { line with state := { line.state with shared, slots, tasks := [] }, runtime } := by
  have step : State.stepDrive stage.setup id root waiters
      (line.alone id root waiters .settle shared runtime).state .settle =
      some { line.state with shared, slots, tasks := [] } := by
    simp [State.stepDrive, alone, last, State.endTask, Tasks.remove]
  exact leads_of_stepDrive rfl rfl step

variable {path : String} {host : Host ρ} {findings : FileFindings} {volume : Volume}

/-- An analysis that has ended answers its triggers, and its task is over. -/
theorem leads_of_outcome {slots : Slots} (outcome : Outcome)
    (last : line.state.slots.finish root line.state.shutDown = (slots, none)) :
    Leads stage id 3 (line.alone id root waiters (.analyze (.ended outcome)) shared runtime)
      { line with
        runtime
        state := { line.state with
          shared, slots
          tasks := []
          journal := line.state.journal ++ [.ended root id outcome] ++
            [.answered root id waiters outcome] } } :=
  (leads_of_ended outcome).trans ((leads_of_answer outcome).trans (leads_of_settle last))

/-- A report that can be read is published, where analyses are enabled and nobody else
publishes. -/
theorem exists_leads_of_report (straight : stage.Straight) (line : Timeline ρ) (id : Nat)
    (root : String) (waiters : List Nat) (runtime : ρ) (on : shared.enabled = true)
    (free : shared.publisher = none)
    (report : Analysis.readReport stage.setup.analysis root path shared.volume =
      (.ok (.ok findings), volume)) :
    ∃ steps ≤ 6, ∃ updates, Leads stage id steps
      (line.alone id root waiters (.analyze (.read path)) shared runtime)
      ({ line with updates }.alone id root waiters
        (.analyze (.ended (.completed findings.totalCount)))
        { shared with
          volume
          shown := findings.files.foldl (Analysis.showing root) shared.shown } runtime) := by
  obtain ⟨enabled, publisher, shown, before, pulls, notes, clock⟩ := shared
  cases on
  cases free
  let held : Shared := ⟨true, some id, shown, volume, pulls, notes, clock⟩
  have reads : Leads stage id 1
      (line.alone id root waiters (.analyze (.read path))
        { held with publisher := none, volume := before } runtime)
      (line.alone id root waiters (.analyze (.acquire findings)) { held with publisher := none }
        runtime) := by
    refine leads_of_step rfl rfl ?_
    simp only [Analysis.step, Analysis.onFiles, report]
    rfl
  have acquires : Leads stage id 1
      (line.alone id root waiters (.analyze (.acquire findings)) { held with publisher := none }
        runtime)
      (line.alone id root waiters (.analyze (.check findings)) held runtime) :=
    leads_of_step rfl rfl rfl
  have checks : Leads stage id 1
      (line.alone id root waiters (.analyze (.check findings)) held runtime)
      (line.alone id root waiters (.analyze (.publish findings.files findings.totalCount)) held
        runtime) :=
    leads_of_step rfl rfl rfl
  obtain ⟨steps, single, updates, shows⟩ := leads_of_publish straight line id root waiters held
    runtime findings.files findings.totalCount
  let last : Shared := { held with shown := findings.files.foldl (Analysis.showing root) shown }
  have completes : Leads stage id 1
      ({ line with updates }.alone id root waiters (.analyze (.publish [] findings.totalCount))
        last runtime)
      ({ line with updates }.alone id root waiters
        (.analyze (.release (.completed findings.totalCount))) last runtime) :=
    leads_of_step rfl rfl rfl
  have releases : Leads stage id 1
      ({ line with updates }.alone id root waiters
        (.analyze (.release (.completed findings.totalCount))) last runtime)
      ({ line with updates }.alone id root waiters
        (.analyze (.ended (.completed findings.totalCount))) { last with publisher := none }
        runtime) :=
    leads_of_step rfl rfl rfl
  exact ⟨_, by omega, updates, reads.trans (acquires.trans (checks.trans (shows.trans
    (completes.trans releases))))⟩

/-- An analysis whose container ends well and leaves a report that can be read shows what the report
holds, answers the triggers that it served with the number of the findings, and is over. -/
theorem exists_leads_of_start (straight : stage.Straight) (ungated : line.gate = none)
    (on : shared.enabled = true) (free : shared.publisher = none) {slots : Slots}
    (last : line.state.slots.finish root line.state.shutDown = (slots, none))
    (contained : Host.runContainer stage.runtime stage.setup.analysis.runner
      (.on stage.setup.analysis.runner root) shared.clock ⟨shared.volume, shared.pulls, runtime⟩ =
        (.ok path, host))
    (report : Analysis.readReport stage.setup.analysis root path host.volume =
      (.ok (.ok findings), volume)) :
    ∃ steps ≤ 17, ∃ later, Leads stage id steps
        (line.alone id root waiters (.analyze .start) shared runtime) later ∧
      later.ready = line.ready ∧ later.sleeping = line.sleeping ∧
      later.state = { line.state with
        shared := { shared with
          volume
          pulls := host.pulls
          shown := findings.files.foldl (Analysis.showing root) (shared.shown.clearTarget root) }
        slots
        tasks := []
        journal := line.state.journal ++ [.ended root id (.completed findings.totalCount)] ++
          [.answered root id waiters (.completed findings.totalCount)] } := by
  let cleared : Shared := { shared with shown := shared.shown.clearTarget root }
  have starts : Leads stage id 1 (line.alone id root waiters (.analyze .start) shared runtime)
      (line.alone id root waiters (.analyze .clear) shared runtime) :=
    leads_of_step rfl rfl (by simp [Analysis.step, on])
  have clears : Leads stage id 1 (line.alone id root waiters (.analyze .clear) shared runtime)
      (line.alone id root waiters (.analyze (.container .prepare)) cleared runtime) :=
    leads_of_step rfl rfl rfl
  obtain ⟨running, few, contains⟩ : ∃ steps ≤ 6, Leads stage id steps
      (line.alone id root waiters (.analyze (.container .prepare)) cleared runtime)
      (line.alone id root waiters (.analyze (.read path))
        { cleared with volume := host.volume, pulls := host.pulls } host.runtime) :=
    @leads_of_repeated ρ stage line id root waiters cleared straight ungated _ _ _ _ _
      (Host.repeated_of_runContainer contained)
  obtain ⟨reading, enough, updates, reads⟩ := @exists_leads_of_report ρ stage
    { cleared with volume := host.volume, pulls := host.pulls } path findings volume straight line
    id root waiters host.runtime on free report
  exact ⟨_, by omega, _, starts.trans (clears.trans (contains.trans (reads.trans
    (leads_of_outcome _ last)))), rfl, rfl, rfl⟩

/-! ### A trigger of its own -/

theorem goOn_over {fuel : Nat} (gone : line.state.task? id = none) :
    goOn stage id fuel line = line := by
  cases fuel with
  | zero => rfl
  | succ fuel => rw [goOn, gone]

/-- A trigger makes its next step. -/
theorem leads_of_trigger {waiter : Nat} {path : String} {phase : TriggerPhase}
    (found : line.state.task? id = some (.trigger waiter path phase)) :
    Leads stage id 1 line
      { line with state := State.stepTrigger stage.setup id waiter path line.state phase } := by
  intro fuel
  have steps : step stage.setup line.state (.step id) =
      some (State.stepTrigger stage.setup id waiter path line.state phase) := by
    simp only [step, found, Option.bind_some, State.stepTask]
  have one : stepOrPublish stage id (.trigger waiter path phase) line =
      { line with state := State.stepTrigger stage.setup id waiter path line.state phase } :=
    happen_of_step steps
  rw [goOn, found]
  simp only [State.commandOf?, one]

/-- A timeline on which a trigger was issued and nothing else has happened. -/
def triggered (line : Timeline ρ) (path : String) (phase : TriggerPhase) (shared : Shared) :
    Timeline ρ :=
  { line with
    state := { shared, tasks := [(0, .trigger 0 path phase)], nextTask := 1, nextTrigger := 1 } }

/-- A timeline on which an analysis of a root has started for the only trigger. -/
def opened (line : Timeline ρ) (target : String) (shared : Shared) : Timeline ρ :=
  { line with state := {
      shared
      slots := [(target, { running := true })]
      nextTask := 2
      nextTrigger := 1
      journal := [.arrived target 0, .started target 1 [0]] } }

/-- A trigger whose path is accepted starts an analysis of the root. -/
theorem leads_of_triggered {path target : String} (on : shared.enabled = true)
    (accepted : stage.setup.workspace.resolve shared.volume.disk.currentPath
      (stage.setup.holdsSources shared.volume.disk) path = .ok target) :
    Leads stage 0 4 (line.triggered path .start shared)
      ((line.opened target shared).alone 1 target [0] (.analyze .start) shared line.runtime) := by
  have asks : Leads stage 0 1 (line.triggered path .start shared)
      (line.triggered path .asked shared) := by
    have step := @leads_of_trigger ρ stage (line.triggered path .start shared) 0 0 path .start rfl
    simpa [State.stepTrigger, triggered, State.become, Tasks.update] using step
  have admits : Leads stage 0 1 (line.triggered path .asked shared)
      (line.triggered path .admitted shared) := by
    have step := @leads_of_trigger ρ stage (line.triggered path .asked shared) 0 0 path .asked rfl
    simpa [State.stepTrigger, triggered, on, State.become, Tasks.update] using step
  have resolves : Leads stage 0 1 (line.triggered path .admitted shared)
      (line.triggered path (.resolved target) shared) := by
    have step :=
      @leads_of_trigger ρ stage (line.triggered path .admitted shared) 0 0 path .admitted rfl
    simpa [State.stepTrigger, triggered, accepted, State.become, Tasks.update] using step
  have arrives := @leads_of_trigger ρ stage (line.triggered path (.resolved target) shared) 0 0
    path (.resolved target) rfl
  exact asks.trans (admits.trans (resolves.trans arrives))

/-- A task that has so many steps ahead goes on to the end of them, if they are not too many. -/
theorem poll_of_leads {line later : Timeline ρ} (found : (line.state.task? id).isSome)
    (leads : Leads stage id steps line later) (enough : steps ≤ stepLimit)
    (gone : later.state.task? id = none) :
    poll stage id .start line =
      { later with ready := later.ready ++ later.startedSince line.state.nextTask } := by
  have goes : goOn stage id stepLimit line = later := by
    have split := leads (stepLimit - steps)
    rwa [Nat.sub_add_cancel enough, goOn_over gone] at split
  have starts : resume stage id .start line = (true, line) := by
    unfold resume
    cases here : line.state.task? id with
    | none => simp [here] at found
    | some task => rfl
  simp only [poll, starts, if_true, goes]

theorem settle_ready {fuel task : Nat} {cue : Cue} {rest : List (Nat × Cue)}
    (ready : line.ready = (task, cue) :: rest) :
    settle stage (fuel + 1) line = settle stage fuel (poll stage task cue { line with ready := rest }) := by
  rw [settle, ready]

theorem settle_idle {fuel : Nat} (ready : line.ready = []) : settle stage fuel line = line := by
  cases fuel with
  | zero => rfl
  | succ fuel => rw [settle, ready]

/-- Where nothing sleeps, time passes and nothing happens. -/
theorem state_advance (millis : Nat) (awake : line.sleeping = []) :
    (advance stage millis line).state = line.state := by
  have none : line.nextWake? (line.now + millis) = none := by simp [nextWake?, awake]
  rw [advance, stepLimit, advanceTo, none]

/-- On a timeline where nothing has happened, a trigger whose path is accepted leads to an analysis
of its own. Where its container ends well and leaves a report that can be read, the trigger is
answered with the number of its findings, and they are shown. -/
theorem state_after_trigger (straight : stage.Straight) {path target report : String}
    (on : shared.enabled = true) (free : shared.publisher = none)
    (accepted : stage.setup.workspace.resolve shared.volume.disk.currentPath
      (stage.setup.holdsSources shared.volume.disk) path = .ok target)
    (contained : Host.runContainer stage.runtime stage.setup.analysis.runner
      (.on stage.setup.analysis.runner target) shared.clock ⟨shared.volume, shared.pulls, runtime⟩ =
        (.ok report, host))
    (read : Analysis.readReport stage.setup.analysis target report host.volume =
      (.ok (.ok findings), volume)) (millis : Nat) :
    ∃ state, (advance stage millis
        (Timeline.after stage [.trigger path] { state := { shared }, runtime })).state = state ∧
      state.answers = [(0, .completed findings.totalCount)] ∧
      state.shared = { shared with
        volume
        pulls := host.pulls
        shown := findings.files.foldl (Analysis.showing target)
          (shared.shown.clearTarget target) } := by
  let start : Timeline ρ := { state := { shared }, runtime }
  have last : (start.opened target shared).state.slots.finish target false =
      ([(target, {})], none) := by
    simp [opened, Slots.finish, Slots.get, Slots.set]
  obtain ⟨steps, few, later, leads, ready, sleeping, ends⟩ := @exists_leads_of_start ρ stage
    (start.opened target shared) 1 target [0] shared runtime report host findings volume straight
    rfl on free _ last contained read
  have gone : later.state.task? 1 = none := by
    rw [ends]
    rfl
  have quiet : later.startedSince 2 = [] := by
    rw [startedSince, ends]
    rfl
  have first : poll stage 0 .start (start.triggered path .start shared) =
      { (start.opened target shared).alone 1 target [0] (.analyze .start) shared runtime with
        ready := [(1, .start)] } :=
    poll_of_leads rfl (leads_of_triggered on accepted) (by decide) rfl
  have second : poll stage 1 .start
      ((start.opened target shared).alone 1 target [0] (.analyze .start) shared runtime) =
        later := by
    have polled : _ = { later with ready := later.ready ++ later.startedSince 2 } :=
      poll_of_leads rfl leads (few.trans (by decide)) gone
    rw [polled, quiet, List.append_nil]
  have settled : settle stage stepLimit
      { start.triggered path .start shared with ready := [(0, .start)] } = later :=
    (settle_ready rfl).trans ((congrArg (settle stage _) first).trans ((settle_ready rfl).trans
      ((congrArg (settle stage _) second).trans (settle_idle (ready.trans rfl)))))
  have issued : Timeline.after stage [.trigger path] start = later := settled
  refine ⟨later.state, ?_, ?_, ?_⟩
  · rw [issued, state_advance millis (sleeping.trans rfl)]
  · rw [ends]
    rfl
  · rw [ends]

end Timeline

end StyleMonitor.Coordinator
