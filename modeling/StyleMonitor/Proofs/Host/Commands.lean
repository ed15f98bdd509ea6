import StyleMonitor.Proofs.Freshness.Recording
import StyleMonitor.Proofs.Host.ImageChecks

/-!
# The commands of a run

A run of the container issues at most three commands: a pull when the image is due, the removal of
old images when the pull succeeds, and the run itself, always and last. The listing runtime carries
out commands as another does and notes each of them, so what it notes is what was issued. What the
run comes to depends on the reply to the last command alone.
-/

namespace StyleMonitor

variable {ρ σ : Type}

/-- A runtime that notes what it carries out. -/
def Runtime.listing (runtime : Runtime ρ) : Runtime (ρ × List Carried) :=
  fun command (state, listed) volume =>
    let (reply, later, left) := runtime command state volume
    (reply, (later, listed ++ [⟨command, volume, reply, left⟩]), left)

/-- No command moves the program that issues it to another directory. -/
def Runtime.Stays (runtime : Runtime ρ) : Prop :=
  ∀ command state volume, (runtime command state volume).2.2.disk.current = volume.disk.current

/-- What a run came to: its result, the commands it issued in turn, and the host it left. -/
structure Execution (ρ : Type) where
  result : Except Container.Fault String
  issued : List Carried
  host : Host ρ

namespace Host

/-- The host with a list for what will be carried out. -/
def watched (host : Host ρ) (listed : List Carried) : Host (ρ × List Carried) :=
  ⟨host.volume, host.pulls, (host.runtime, listed)⟩

/-- A run of the container, with the commands that the runtime was given. -/
def execution (host : Host ρ) (runtime : Runtime ρ) (settings : RunnerSettings)
    (job : Container.Job) (now : Instant) : Execution ρ :=
  let (result, later) := runContainer runtime.listing settings job now (host.watched [])
  ⟨result, later.runtime.2, ⟨later.volume, later.pulls, later.runtime.1⟩⟩

/-- The commands that a run issues in so many steps. -/
def issued (runtime : Runtime ρ) (settings : RunnerSettings) (job : Container.Job)
    (now : Instant) : Nat → Container.Stage → Host ρ → List Carried
  | 0, _, _ => []
  | count + 1, stage, host =>
    let step := stepRun runtime settings job now stage host
    let rest := issued runtime settings job now count step.1 step.2
    match stage.command? settings host.volume.disk.currentPath job with
    | some command => carried runtime command host :: rest
    | none => rest

variable {runtime : Runtime ρ} {settings : RunnerSettings} {job : Container.Job} {now : Instant}
  {stage next : Container.Stage} {host later : Host ρ} {check : Image.Check}

/-! ### Noting changes nothing -/

theorem stepRun_of_execute {command : Command}
    (waits : stage.command? settings host.volume.disk.currentPath job = some command) :
    stepRun runtime settings job now stage host =
      (stage.afterReply settings host.volume.disk.currentPath job (execute runtime command host).1,
        (execute runtime command host).2) :=
  stepRun_of_command waits

theorem stepRun_listing (runtime : Runtime ρ) (settings : RunnerSettings) (job : Container.Job)
    (now : Instant) (stage : Container.Stage) (host : Host ρ) (listed : List Carried) :
    stepRun runtime.listing settings job now stage (host.watched listed) =
      ((stepRun runtime settings job now stage host).1,
        (stepRun runtime settings job now stage host).2.watched
          (match stage.command? settings host.volume.disk.currentPath job with
            | some command => listed ++ [carried runtime command host]
            | none => listed)) := by
  cases waits : stage.command? settings host.volume.disk.currentPath job with
  | some command =>
    have waits' : stage.command? settings (host.watched listed).volume.disk.currentPath job =
        some command := waits
    rw [stepRun_of_command waits', stepRun_of_execute waits]
    rfl
  | none =>
    obtain ⟨pulls, next, volume, acts, -⟩ : ∃ pulls next volume,
        stage.act settings job now host.pulls host.volume = (.ok (pulls, next), volume) ∧
          stage.Advance job host.volume next := Container.Stage.advance_of_act waits
    have idle : stage.command? settings (host.watched listed).volume.disk.currentPath job = none :=
      waits
    have acts' : stage.act settings job now (host.watched listed).pulls
        (host.watched listed).volume = (.ok (pulls, next), volume) := acts
    rw [stepRun_of_act idle acts', stepRun_of_act waits acts]
    rfl

theorem repeated_listing (runtime : Runtime ρ) (settings : RunnerSettings) (job : Container.Job)
    (now : Instant) (count : Nat) (stage : Container.Stage) (host : Host ρ)
    (listed : List Carried) :
    repeated (stepRun runtime.listing settings job now) count stage (host.watched listed) =
      ((repeated (stepRun runtime settings job now) count stage host).1,
        (repeated (stepRun runtime settings job now) count stage host).2.watched
          (listed ++ issued runtime settings job now count stage host)) := by
  induction count generalizing stage host listed with
  | zero =>
    rw [issued, List.append_nil]
    rfl
  | succ count ih =>
    rw [repeated_succ, repeated_succ, stepRun_listing, ih, issued]
    cases stage.command? settings host.volume.disk.currentPath job with
    | some command => simp only [List.append_assoc, List.singleton_append]
    | none => rfl

/-- Noting the commands changes nothing: the run has the same result and leaves the same host. -/
theorem runContainer_eq (runtime : Runtime ρ) (settings : RunnerSettings) (job : Container.Job)
    (now : Instant) (host : Host ρ) :
    runContainer runtime settings job now host =
      ((host.execution runtime settings job now).result,
        (host.execution runtime settings job now).host) := by
  cases plain : repeated (stepRun runtime settings job now) 6 .prepare host with
  | mk last later =>
    obtain ⟨result, rfl⟩ := exists_ended_of_repeated (Nat.le_refl 6) plain
    have listing := repeated_listing runtime settings job now 6 .prepare host []
    rw [plain] at listing
    simp only [execution, runContainer, bind, StateT.bind, plain, listing]
    rfl

/-! ### Step by step -/

/-- The host when the directory is made and an old report is discarded, as far as that goes. -/
def prepared (settings : RunnerSettings) (job : Container.Job) (host : Host ρ) : Host ρ :=
  { host with volume := (Session.remove (Path.join job.directory settings.reportFile)
      (Session.makeDirectories job.directory host.volume).2).2 }

/-- The check of the image that a run makes. -/
def checkAt (settings : RunnerSettings) (now : Instant) : Image.Check :=
  ⟨settings.cacheKey, now, settings.cacheMillis⟩

theorem stepRun_refused {failure : Failure}
    (refused : (Session.makeDirectories job.directory host.volume).1 = .error failure) :
    stepRun runtime settings job now .prepare host =
      (.ended (.error (.noDirectory job.directory failure)),
        { host with volume := (Session.makeDirectories job.directory host.volume).2 }) := by
  refine stepRun_of_act rfl ?_
  simp only [Container.Stage.act, Session.bind_apply, Session.attempt_apply, refused]
  rfl

theorem stepRun_prepare (runtime : Runtime ρ) (settings : RunnerSettings) (now : Instant)
    (made : (Session.makeDirectories job.directory host.volume).1 = .ok ()) :
    stepRun runtime settings job now .prepare host =
      (.image (checkAt settings now) .consult, host.prepared settings job) := by
  refine stepRun_of_act rfl ?_
  simp only [Container.Stage.act, Session.bind_apply, Session.attempt_apply, made]
  rfl

/-- At the record a run does what the check of its image does. -/
theorem stepRun_image {stage next : Image.Stage} {pulls : Freshness} {volume : Volume}
    (idle : stage.command? settings = none)
    (acts : stage.act check host.pulls host.volume = (.ok (pulls, next), volume)) :
    stepRun runtime settings job now (.image check stage) host =
      (.ofImage check next, { host with volume, pulls }) := by
  refine stepRun_of_act idle ?_
  simp only [Container.Stage.act, Session.bind_apply, acts]
  rfl

theorem stepRun_consult (runtime : Runtime ρ) (settings : RunnerSettings) (job : Container.Job)
    (now : Instant) (check : Image.Check) (host : Host ρ) :
    stepRun runtime settings job now (.image check .consult) host =
      (if isDue check host then .image check .pull else .run, (consult check.key host).2) := by
  obtain ⟨last, volume, found, same⟩ := consult_eq check.key host
  rw [isDue, same, stepRun_image rfl (Image.Stage.act_consult found)]
  cases check.isDue last <;> rfl

theorem stepRun_record : stepRun runtime settings job now (.image check .record) host =
    (.image check .prune, host.recorded check) :=
  stepRun_image rfl Image.Stage.act_record

/-! ### Courses -/

/-- The command that runs the container, as it is issued on a host. -/
def contained (runtime : Runtime ρ) (settings : RunnerSettings) (job : Container.Job)
    (host : Host ρ) : Carried :=
  carried runtime (Container.runCommand settings host.volume.disk.currentPath job) host

/-- What a run comes to whose container is run on a host. -/
def outcome (runtime : Runtime ρ) (settings : RunnerSettings) (job : Container.Job)
    (host : Host ρ) : Except Container.Fault String :=
  Container.Stage.afterRun settings host.volume.disk.currentPath job
    (contained runtime settings job host).reply

/-- The host that the container leaves. -/
def left (runtime : Runtime ρ) (settings : RunnerSettings) (job : Container.Job)
    (host : Host ρ) : Host ρ :=
  (execute runtime (Container.runCommand settings host.volume.disk.currentPath job) host).2

/-- A pull that succeeds is recorded; after any other one the container is run at once. -/
theorem afterReply_pull (settings : RunnerSettings) (current : String) (job : Container.Job)
    (check : Image.Check) (reply : Reply) :
    (Container.Stage.image check .pull).afterReply settings current job reply =
      if Analysis.succeeds reply then .image check .record else .run := by
  rw [Container.Stage.afterReply, Image.Stage.afterReply_pull]
  cases Analysis.succeeds reply <;> rfl

/-- A run ends with these commands in so many steps. -/
structure Ends (runtime : Runtime ρ) (settings : RunnerSettings) (job : Container.Job)
    (now : Instant) (count : Nat) (stage : Container.Stage) (host : Host ρ)
    (execution : Execution ρ) : Prop where
  ends : repeated (stepRun runtime settings job now) count stage host =
    (.ended execution.result, execution.host)
  issues : issued runtime settings job now count stage host = execution.issued

theorem Ends.of_command {command : Command} {count : Nat} {listed : List Carried}
    {result : Except Container.Fault String}
    (waits : stage.command? settings host.volume.disk.currentPath job = some command)
    (replies : stage.afterReply settings host.volume.disk.currentPath job
      (execute runtime command host).1 = next)
    (ends : Ends runtime settings job now count next (execute runtime command host).2
      ⟨result, listed, later⟩) :
    Ends runtime settings job now (count + 1) stage host
      ⟨result, carried runtime command host :: listed, later⟩ := by
  subst replies
  refine ⟨?_, ?_⟩
  · rw [repeated_succ, stepRun_of_execute waits]
    exact ends.ends
  · rw [issued, stepRun_of_execute waits, waits]
    exact congrArg _ ends.issues

theorem Ends.of_act {count : Nat} {after : Host ρ} {execution : Execution ρ}
    (idle : stage.command? settings host.volume.disk.currentPath job = none)
    (acts : stepRun runtime settings job now stage host = (next, after))
    (ends : Ends runtime settings job now count next after execution) :
    Ends runtime settings job now (count + 1) stage host execution := by
  refine ⟨?_, ?_⟩
  · rw [repeated_succ, acts]
    exact ends.ends
  · rw [issued, acts, idle]
    exact ends.issues

theorem issued_ended (result : Except Container.Fault String) (count : Nat) (host : Host ρ) :
    issued runtime settings job now count (.ended result) host = [] := by
  induction count with
  | zero => rfl
  | succ count ih =>
    rw [issued, stepRun_ended]
    exact ih

theorem Ends.ended (result : Except Container.Fault String) (count : Nat) (host : Host ρ) :
    Ends runtime settings job now count (.ended result) host ⟨result, [], host⟩ :=
  ⟨repeated_ended result count, issued_ended result count host⟩

/-- Once the image is checked the container is run, and that is the end. -/
theorem Ends.run (count : Nat) (host : Host ρ) :
    Ends runtime settings job now (count + 1) .run host
      ⟨outcome runtime settings job host, [contained runtime settings job host],
        left runtime settings job host⟩ :=
  .of_command rfl rfl (.ended _ count _)

theorem execution_of_ends {execution : Execution ρ}
    (ends : Ends runtime settings job now 6 .prepare host execution) :
    host.execution runtime settings job now = execution := by
  have listing := repeated_listing runtime settings job now 6 .prepare host []
  rw [ends.ends, ends.issues] at listing
  simp only [Host.execution, runContainer, bind, StateT.bind, listing]
  rfl

/-- A run whose directory cannot be made issues nothing. -/
theorem execution_refused {failure : Failure}
    (refused : (Session.makeDirectories job.directory host.volume).1 = .error failure) :
    host.execution runtime settings job now =
      ⟨.error (.noDirectory job.directory failure), [],
        { host with volume := (Session.makeDirectories job.directory host.volume).2 }⟩ :=
  execution_of_ends (.of_act rfl (stepRun_refused refused) (.ended _ 5 _))

/-- A run whose directory is made checks the image and runs the container. -/
theorem execution_made (runtime : Runtime ρ) (settings : RunnerSettings) (now : Instant)
    (made : (Session.makeDirectories job.directory host.volume).1 = .ok ()) :
    ∃ pull? prune? last,
      Checked runtime settings (checkAt settings now) (host.prepared settings job) pull? prune?
        last ∧
      host.execution runtime settings job now =
        ⟨outcome runtime settings job last,
          pull?.toList ++ prune?.toList ++ [contained runtime settings job last],
          left runtime settings job last⟩ := by
  have prepares := stepRun_prepare runtime settings now made
  generalize host.prepared settings job = begun at prepares ⊢
  generalize checkAt settings now = check at prepares ⊢
  have consults := stepRun_consult runtime settings job now check begun
  cases due : isDue check begun with
  | false =>
    rw [due] at consults
    exact ⟨none, none, _, .fresh due,
      execution_of_ends (.of_act rfl prepares (.of_act rfl consults (.run 3 _)))⟩
  | true =>
    rw [due, if_pos rfl] at consults
    cases succeeds : Analysis.succeeds
        (execute runtime (Image.pullCommand settings) (consult check.key begun).2).1 with
    | false =>
      refine ⟨some _, none, _, .failed due succeeds, execution_of_ends (.of_act rfl prepares
        (.of_act rfl consults (.of_command rfl ?_ (.run 2 _))))⟩
      rw [afterReply_pull, if_neg (by simp [succeeds])]
    | true =>
      refine ⟨some _, some _, _, .pulled due succeeds rfl, execution_of_ends (.of_act rfl prepares
        (.of_act rfl consults (.of_command rfl ?_ (.of_act rfl stepRun_record
          (.of_command rfl rfl (.run 0 _))))))⟩
      rw [afterReply_pull, if_pos succeeds]

/-! ### The current directory -/

theorem prepared_current (settings : RunnerSettings) (job : Container.Job) (host : Host ρ) :
    (host.prepared settings job).volume.disk.current = host.volume.disk.current :=
  (Session.remove_stays _ _).trans (Session.makeDirectories_stays _ _)

theorem consult_current (key : String) (host : Host ρ) :
    (consult key host).2.volume.disk.current = host.volume.disk.current := by
  obtain ⟨last, volume, found, same⟩ := consult_eq key host
  have stays := host.pulls.last?_stays key host.volume
  rw [found] at stays
  rw [same]
  exact stays

/-- The check of an image ends in the directory that it starts in. -/
theorem Checked.current {pull? prune? : Option Carried} (stays : runtime.Stays)
    (checked : Checked runtime settings check host pull? prune? later) :
    later.volume.disk.current = host.volume.disk.current := by
  cases checked with
  | fresh => exact consult_current _ host
  | failed => exact (stays _ _ _).trans (consult_current _ host)
  | pulled due succeeds records =>
    subst records
    exact (stays _ _ _).trans ((Freshness.record_stays _ _ _ _).trans
      ((stays _ _ _).trans (consult_current _ host)))

/-! ### What is certain of a run -/

/-- What a run comes to by the reply to its last command: the path of the report, or a fault of the
container, of the time that it took, or of the program that should run it. -/
inductive Yields (settings : RunnerSettings) (current : String) (job : Container.Job) :
    Reply → Except Container.Fault String → Prop where
  | report {output : Output} (well : output.exit = .code 0) :
      Yields settings current job (.ok output)
        (.ok (Path.join (Path.absolute current job.directory) settings.reportFile))
  | unsuccessful {output : Output} (badly : output.exit ≠ .code 0) :
      Yields settings current job (.ok output)
        (.error (.unsuccessful output.exit (Text.trimmed output.stderr)))
  | timedOut {failure : Failure} (late : failure.kind = .timedOut) :
      Yields settings current job (.error failure)
        (.error (.timedOut (settings.runTimeout.getD 0)))
  | notStarted {failure : Failure} (other : failure.kind ≠ .timedOut) :
      Yields settings current job (.error failure) (.error (.notStarted settings.runtime failure))

theorem yields_afterRun (settings : RunnerSettings) (current : String) (job : Container.Job)
    (reply : Reply) :
    Yields settings current job reply (Container.Stage.afterRun settings current job reply) := by
  cases reply with
  | ok output =>
    by_cases well : output.exit = .code 0
    · rw [Container.Stage.afterRun, if_pos (by simpa [Exit.isSuccess] using well)]
      exact .report well
    · rw [Container.Stage.afterRun, if_neg (by simpa [Exit.isSuccess] using well)]
      exact .unsuccessful well
  | error failure =>
    by_cases late : failure.kind = .timedOut
    · rw [Container.Stage.afterRun, if_pos (by simpa [Failure.isTimeout] using late)]
      exact .timedOut late
    · rw [Container.Stage.afterRun, if_neg (by simpa [Failure.isTimeout] using late)]
      exact .notStarted late

/-- A reply yields one result. -/
theorem Yields.eq {current : String} {reply : Reply} {result other : Except Container.Fault String}
    (one : Yields settings current job reply result)
    (two : Yields settings current job reply other) : result = other := by
  cases one with
  | report well =>
    cases two with
    | report => rfl
    | unsuccessful badly => exact absurd well badly
  | unsuccessful badly =>
    cases two with
    | report well => exact absurd well badly
    | unsuccessful => rfl
  | timedOut late =>
    cases two with
    | timedOut => rfl
    | notStarted other => exact absurd late other
  | notStarted other =>
    cases two with
    | timedOut late => exact absurd late other
    | notStarted => rfl

/-- A run that succeeds gives the path of its report. -/
theorem Yields.eq_reportPath {current path : String} {reply : Reply}
    (yields : Yields settings current job reply (.ok path)) :
    path = Container.reportPath settings current job := by
  cases yields
  rfl

theorem Yields.ne_noDirectory {current path : String} {failure : Failure} {reply : Reply}
    {result : Except Container.Fault String} (yields : Yields settings current job reply result) :
    result ≠ .error (.noDirectory path failure) := by
  cases yields <;> nofun

/-- What is certain of the commands of a run whose directory is made, and of its result. The image
is pulled when no pull is recorded or the last one is a window old; old images are removed when that
pull ends with exit code 0, and it was recorded before; and the container is run in any case. The
reply to that last command decides what the run comes to. -/
structure Course (runtime : Runtime ρ) (settings : RunnerSettings) (job : Container.Job)
    (now : Instant) (host : Host ρ) (pull? prune? : Option Carried) (ran : Carried)
    (execution : Execution ρ) : Prop where
  issued : execution.issued = pull?.toList ++ prune?.toList ++ [ran]
  due : pull?.isSome ↔ ∀ last, (lastPull? settings (host.prepared settings job)).1 = some last →
    last.nanos + settings.cacheMillis * Instant.perMilli ≤ now.nanos
  pull : ∀ pull ∈ pull?, pull.command = Image.pullCommand settings
  pulled : prune?.isSome ↔
    ∃ pull ∈ pull?, ∃ output, pull.reply = .ok output ∧ output.exit = .code 0
  prune : ∀ prune ∈ prune?, prune.command = Image.pruneCommand settings
  records : ∀ pull ∈ pull?, ∀ prune ∈ prune?,
    prune.found = (host.pulls.record settings.cacheKey now pull.left).2 ∧
    execution.host.pulls =
      (host.pulls.record settings.cacheKey now pull.left).1.toOption.getD host.pulls ∧
    ∀ kept, (host.pulls.record settings.cacheKey now pull.left).1 = .ok kept →
      host.pulls.Tidy pull.left.disk →
        kept.standing? prune.found.disk settings.cacheKey = some (host.pulls.rounded now)
  run : ran.command = Container.runCommand settings ran.found.disk.currentPath job
  result : Yields settings ran.found.disk.currentPath job ran.reply execution.result
  current : runtime.Stays → ran.found.disk.current = host.volume.disk.current

theorem isDue_checkAt : isDue (checkAt settings now) host = true ↔
    ∀ last, (lastPull? settings host).1 = some last →
      last.nanos + settings.cacheMillis * Instant.perMilli ≤ now.nanos :=
  Image.Check.isDue_iff

theorem succeeds_iff {reply : Reply} :
    Analysis.succeeds reply = true ↔ ∃ output, reply = .ok output ∧ output.exit = .code 0 := by
  cases reply with
  | error failure => exact iff_of_false nofun nofun
  | ok output => simp [Analysis.succeeds, Exit.isSuccess]

theorem standing?_of_record {pulls kept : Freshness} {key : String} {volume : Volume}
    (records : (pulls.record key now volume).1 = .ok kept) (tidy : pulls.Tidy volume.disk) :
    kept.standing? (pulls.record key now volume).2.disk key = some (pulls.rounded now) := by
  have ensures := Freshness.record_ensures_standing tidy key now volume.refusals
  cases ran : pulls.record key now volume with
  | mk outcome after =>
    rw [ran] at ensures records
    subst records
    exact ensures.2.2

theorem exists_course (runtime : Runtime ρ) (settings : RunnerSettings) (job : Container.Job)
    (now : Instant) (host : Host ρ)
    (made : (Session.makeDirectories job.directory host.volume).1 = .ok ()) :
    ∃ pull? prune? ran, Course runtime settings job now host pull? prune? ran
      (host.execution runtime settings job now) := by
  obtain ⟨pull?, prune?, last, checked, same⟩ :=
    execution_made runtime settings now made
  have current (stays : runtime.Stays) : last.volume.disk.current = host.volume.disk.current :=
    (checked.current stays).trans (prepared_current settings job host)
  refine ⟨pull?, prune?, contained runtime settings job last, ?_⟩
  rw [same]
  cases checked with
  | fresh fresh =>
    exact
      { issued := rfl
        due := by simp [← isDue_checkAt, fresh]
        pull := nofun
        pulled := by simp
        prune := nofun
        records := nofun
        run := rfl
        result := yields_afterRun settings _ job _
        current := current }
  | failed due fails =>
    exact
      { issued := rfl
        due := by simp [← isDue_checkAt, due]
        pull := by simp [carried]
        pulled := by simp [← succeeds_iff, carried, fails]
        prune := nofun
        records := fun _ _ _ none => nomatch none
        run := rfl
        result := yields_afterRun settings _ job _
        current := current }
  | pulled due succeeds records =>
    subst records
    exact
      { issued := rfl
        due := by simp [← isDue_checkAt, due]
        pull := by simp [carried]
        pulled := by simp [← succeeds_iff, carried, succeeds]
        prune := by simp [carried]
        records := by
          have pulls : (execute runtime (Image.pullCommand settings)
              (consult settings.cacheKey (host.prepared settings job)).2).2.pulls = host.pulls :=
            consult_pulls settings.cacheKey _
          simp only [Option.mem_some_iff, forall_eq']
          rw [← pulls]
          exact ⟨rfl, rfl, fun kept => standing?_of_record⟩
        run := rfl
        result := yields_afterRun settings _ job _
        current := current }

/-- The directory of a run is to blame exactly when it cannot be made. -/
theorem noDirectory_iff (runtime : Runtime ρ) (settings : RunnerSettings) (job : Container.Job)
    (now : Instant) (host : Host ρ) (path : String) (failure : Failure) :
    (host.execution runtime settings job now).result = .error (.noDirectory path failure) ↔
      path = job.directory ∧
        (Session.makeDirectories job.directory host.volume).1 = .error failure := by
  cases made : (Session.makeDirectories job.directory host.volume).1 with
  | error own =>
    rw [execution_refused made]
    simp [eq_comm]
  | ok =>
    obtain ⟨pull?, prune?, ran, course⟩ := exists_course runtime settings job now host made
    exact iff_of_false course.result.ne_noDirectory fun both => nomatch both.2

/-- A run fails on its directory exactly when that cannot be made; it issues nothing then, and all
that was there stays. Otherwise it issues a pull, the removal of old images and the container's run,
as `Course` says. Two runs of a job with the same settings, in the same directory, issue the same
last command, and come to the same result when the replies to it are the same; whatever the record,
the time, and the replies to the other commands are. -/
theorem commands_and_result_of_run (runtime : Runtime ρ) (settings : RunnerSettings)
    (job : Container.Job) (now : Instant) (host : Host ρ) :
    let run := host.execution runtime settings job now
    runContainer runtime settings job now host = (run.result, run.host) ∧
    (∀ path failure, run.result = .error (.noDirectory path failure) ↔
      path = job.directory ∧
        (Session.makeDirectories job.directory host.volume).1 = .error failure) ∧
    (∀ failure, (Session.makeDirectories job.directory host.volume).1 = .error failure →
      run.issued = [] ∧ ∀ place node, host.volume.disk.tree.lookup place = some node →
        run.host.volume.disk.tree.lookup place = some node) ∧
    ((Session.makeDirectories job.directory host.volume).1 = .ok () →
      ∃ pull? prune? ran, Course runtime settings job now host pull? prune? ran run) ∧
    ∀ (σ : Type) (other : Runtime σ) (time : Instant) (second : Host σ),
      runtime.Stays → other.Stays → second.volume.disk.current = host.volume.disk.current →
      (Session.makeDirectories job.directory host.volume).1 = .ok () →
      (Session.makeDirectories job.directory second.volume).1 = .ok () →
      ∃ one two, run.issued.getLast? = some one ∧
        (second.execution other settings job time).issued.getLast? = some two ∧
        two.command = one.command ∧
        (two.reply = one.reply →
          (second.execution other settings job time).result = run.result) := by
  refine ⟨runContainer_eq runtime settings job now host,
    noDirectory_iff runtime settings job now host, ?_, exists_course runtime settings job now host,
    ?_⟩
  · intro failure refused
    rw [execution_refused refused]
    exact ⟨rfl, fun place node => Session.lookup_of_makeDirectories⟩
  · intro σ other time second stays stays' same made made'
    obtain ⟨_, _, one, course⟩ := exists_course runtime settings job now host made
    obtain ⟨_, _, two, course'⟩ := exists_course other settings job time second made'
    have here : two.found.disk.currentPath = one.found.disk.currentPath := by
      rw [Disk.currentPath, Disk.currentPath, course.current stays, course'.current stays', same]
    refine ⟨one, two, ?_, ?_, ?_, ?_⟩
    · rw [course.issued, List.getLast?_concat]
    · rw [course'.issued, List.getLast?_concat]
    · rw [course.run, course'.run, here]
    · intro replies
      have yields := course'.result
      rw [here, replies] at yields
      exact yields.eq course.result

/-- A run that finds the last pull a window old, and another one that finds none and cannot pull.
Their containers end alike, in each of the four ways. -/
theorem commands_and_result_of_run_stale :
    let replies : List Reply := [.ok {}, .ok ⟨.code 125, "", " no space \n"⟩,
      .error (.reported .timedOut "late"), .error (.refused .notFound)]
    let ending (reply : Reply) : Runtime Unit := fun command state volume =>
      (match command.purpose with
        | .pull => .ok {}
        | .prune => .ok ⟨.signal, "", ""⟩
        | _ => reply, state, volume)
    let failing (reply : Reply) : Runtime Unit := fun command state volume =>
      (if command.purpose = .pull then .error .notText else reply, state, volume)
    let job : Container.Job := ⟨"w", "r/s"⟩
    let stale : Host Unit := ⟨{}, .memory [("lastImagePull", ⟨5⟩)], ()⟩
    let bare : Host Unit := ⟨{}, .memory [], ()⟩
    let run (reply : Reply) := stale.execution (ending reply) {} job ⟨86400000000005⟩
    let other (reply : Reply) := bare.execution (failing reply) {} job ⟨0⟩
    (∀ reply, ∃ pull? prune? ran,
      Course (ending reply) {} job ⟨86400000000005⟩ stale pull? prune? ran (run reply)) ∧
    (∀ reply ∈ replies,
      (run reply).issued.map (·.command.purpose) = [.pull, .prune, .run] ∧
      (other reply).issued.map (·.command.purpose) = [.pull, .run]) ∧
    replies.map (fun reply => (run reply).result) =
      [.ok "/r/s/coding-style-reports.log", .error (.unsuccessful (.code 125) "no space"),
        .error (.timedOut 300), .error (.notStarted "docker" (.refused .notFound))] ∧
    ∀ reply ∈ replies, (other reply).result = (run reply).result := by
  intro replies ending failing job stale bare run other
  have made : (Session.makeDirectories job.directory {}).1 = .ok () := by decide +kernel
  have same : ∀ reply ∈ replies, (other reply).issued.getLast?.map (·.reply) =
      (run reply).issued.getLast?.map (·.reply) := by decide +kernel
  refine ⟨?_, by decide +kernel, by decide +kernel, ?_⟩
  · intro reply
    obtain ⟨-, -, -, course, -⟩ :=
      commands_and_result_of_run (ending reply) {} job ⟨86400000000005⟩ stale
    exact course made
  · intro reply member
    obtain ⟨-, -, -, -, twice⟩ :=
      commands_and_result_of_run (ending reply) {} job ⟨86400000000005⟩ stale
    obtain ⟨one, two, last, last', -, result⟩ :=
      twice Unit (failing reply) ⟨0⟩ bare (fun _ _ _ => rfl) (fun _ _ _ => rfl) rfl made made
    have alike := same reply member
    rw [last, last'] at alike
    exact result (Option.some.inj alike)

end Host

end StyleMonitor
