import StyleMonitor.Proofs.Analysis.ImageChecks
import StyleMonitor.Proofs.Coordinator.SingleFlight
import StyleMonitor.Proofs.Coordinator.Effects

/-!
# How often the image is pulled

Analyses of all roots share one record of pulls. Each of them consults it, and pulls if the last pull
on record is a window old. Between this step and the record of the pull, others may consult the
record as well: so two pulls can lie in one window, if neither was on record when the other was
asked for. What is on record at a consultation keeps its window.
-/

namespace StyleMonitor.Coordinator

variable {setup : Setup} {shared : Shared} {start state middle next : State} {event : Event}
  {events before : List Event} {task : Nat} {root : String} {waiters : List Nat}
  {check : Image.Check} {stored : Instant → Instant}

/-! ### Steps at the record -/

/-- Whether the work on a root has come to this stage of a check. -/
def State.Checking (state : State) (task : Nat) (check : Image.Check) (stage : Image.Stage) : Prop :=
  ∃ root waiters, state.tasks.get? task =
    some (.drive root waiters (.analyze (.container (.image check stage))))

/-- The moment at which a check consults the record. -/
def Consults (task : Nat) (check : Image.Check) (state : State) (event : Event) : Prop :=
  event = .step task ∧ state.Checking task check .consult

/-- The moment at which the pull of a check has succeeded. -/
def Pulls (task : Nat) (check : Image.Check) (state : State) (event : Event) : Prop :=
  (∃ reply volume, event = .reply task reply volume ∧ Analysis.succeeds reply = true) ∧
    state.Checking task check .pull

/-- The check that an event records, if it is one that records a pull. -/
def State.recording? (state : State) : Event → Option Image.Check
  | .step task =>
    match state.tasks.get? task with
    | some (.drive _ _ (.analyze (.container (.image check .record)))) => some check
    | _ => none
  | _ => none

/-- The checks whose pulls a row of events records, in order. -/
def recorded (setup : Setup) (state : State) : List Event → List Image.Check
  | [] => []
  | event :: rest =>
    (state.recording? event).toList ++ ((step setup state event).map fun next =>
      recorded setup next rest).getD []

theorem recorded_append (ran : run setup start before = some middle) (after : List Event) :
    recorded setup start (before ++ after) =
      recorded setup start before ++ recorded setup middle after := by
  induction before generalizing start with
  | nil =>
    cases ran
    rfl
  | cons event rest ih =>
    obtain ⟨next, happens, ran⟩ := Option.bind_eq_some_iff.mp ran
    simp only [recorded, List.cons_append, happens, Option.map_some, Option.getD_some,
      List.append_assoc]
    rw [ih ran]

theorem recorded_snoc (ran : run setup start before = some middle)
    (happens : step setup middle event = some next) :
    recorded setup start (before ++ [event]) =
      recorded setup start before ++ (middle.recording? event).toList := by
  rw [recorded_append ran]
  simp [recorded, happens]

theorem State.recording?_eq_some (records : state.recording? event = some check) :
    ∃ task, event = .step task ∧ state.Checking task check .record := by
  cases event with
  | step task =>
    simp only [recording?] at records
    split at records
    · next root waiters own found =>
      cases records
      exact ⟨task, rfl, root, waiters, found⟩
    · cases records
  | _ => cases records

/-! ### What is on record -/

/-- Whether the record keeps what is recorded, as `stored`, throughout a row of events, and nothing
else changes it. -/
def Keeps (setup : Setup) (start : State) (stored : Instant → Instant) (events : List Event) :
    Prop :=
  let key := setup.analysis.runner.cacheKey
  ∀ before event after state next, events = before ++ event :: after →
    run setup start before = some state → step setup state event = some next →
      next.shared.lastPull? key = (state.recording? event).elim (state.shared.lastPull? key)
        fun check => some (stored check.now)

/-- The time on record after a row of events that it keeps: that of the last check recorded. -/
def onRecord (setup : Setup) (start : State) (stored : Instant → Instant) (events : List Event) :
    Option Instant :=
  ((recorded setup start events).getLast?.map fun check => stored check.now).or
    (start.shared.lastPull? setup.analysis.runner.cacheKey)

theorem Keeps.onRecord (keeps : Keeps setup start stored events)
    (ran : run setup start events = some state) :
    state.shared.lastPull? setup.analysis.runner.cacheKey = onRecord setup start stored events := by
  revert keeps
  refine run_induction ran (fun _ => rfl) ?_
  intro before event middle next came happens ih keeps
  have last := ih fun first found rest state next split =>
    keeps first found (rest ++ [event]) state next (by rw [split]; simp)
  rw [keeps before event [] middle next rfl came happens, Coordinator.onRecord,
    recorded_snoc came happens, last]
  cases middle.recording? event with
  | none => simp [Coordinator.onRecord]
  | some check => simp

/-- A check that was recorded is on record, or one that was recorded later. -/
theorem exists_onRecord {older newer : List Image.Check} {pulled : Image.Check}
    (split : recorded setup start events = older ++ pulled :: newer) :
    ∃ last ∈ pulled :: newer, onRecord setup start stored events = some (stored last.now) := by
  refine ⟨_, List.getLast_mem (List.cons_ne_nil pulled newer), ?_⟩
  rw [onRecord, split, List.getLast?_append, List.getLast?_eq_some_getLast (List.cons_ne_nil _ _)]
  rfl

/-! ### Checks under way -/

/-- Every check has the key and the window of the settings. -/
theorem Reachable.checks (reached : Reachable setup { shared } state) :
    ∀ task root waiters analysis,
      state.tasks.get? task = some (.drive root waiters (.analyze analysis)) →
      analysis.Checks setup.analysis.runner := by
  obtain ⟨events, ran⟩ := reached
  refine run_induction ran nofun ?_
  intro before event state next came happens checks task root waiters analysis found
  have reached : Reachable setup { shared } state := ⟨before, came⟩
  rcases reached.analysis_of_next happens found with
    known | rfl | ⟨earlier, known, ⟨-, after, acts⟩ | ⟨reply, volume, -, waits, rfl⟩⟩
  · exact checks task root waiters analysis known
  · trivial
  · exact Analysis.checks_of_step (checks _ _ _ _ known) acts
  · exact Analysis.checks_afterReply (checks _ _ _ _ known) waits

/-- A pull under way was asked for: its check has consulted the record and found the image due. -/
theorem consulted_of_pull (ran : run setup { shared } events = some state)
    (pulling : state.Checking task check .pull) :
    ∃ asked rest middle, events = asked ++ .step task :: rest ∧
      run setup { shared } asked = some middle ∧ middle.Checking task check .consult ∧
      check.isDue (middle.shared.lastPull? check.key) = true := by
  obtain ⟨root, waiters, found⟩ := pulling
  revert root waiters
  refine run_induction ran nofun ?_
  intro before event state next came happens ih root waiters found
  have reached : Reachable setup { shared } state := ⟨before, came⟩
  rcases reached.analysis_of_next happens found with
    known | begins | ⟨earlier, known, ⟨rfl, after, acts⟩ | ⟨reply, volume, -, waits, pulls⟩⟩
  · obtain ⟨asked, rest, middle, rfl, earlier⟩ := ih root waiters known
    exact ⟨asked, rest ++ [event], middle, by simp, earlier⟩
  · cases begins
  · obtain ⟨rfl, due⟩ := Analysis.consulted_of_step acts
    exact ⟨before, [], state, rfl, came, ⟨_, _, known⟩, due⟩
  · exact absurd pulls.symm (Analysis.afterReply_ne_pull waits check)

/-- A pull that is to be recorded has succeeded. -/
theorem pulled_of_record (ran : run setup { shared } events = some state)
    (recording : state.Checking task check .record) :
    Occurs setup { shared } (Pulls task check) events := by
  obtain ⟨root, waiters, found⟩ := recording
  revert root waiters
  refine run_induction ran nofun ?_
  intro before event state next came happens ih root waiters found
  have reached : Reachable setup { shared } state := ⟨before, came⟩
  rcases reached.analysis_of_next happens found with
    known | begins | ⟨earlier, known, ⟨-, after, acts⟩ | ⟨reply, volume, rfl, waits, records⟩⟩
  · exact (ih root waiters known).append _
  · cases begins
  · exact absurd rfl (Analysis.step_ne_record acts check)
  · obtain ⟨rfl, succeeds⟩ := Analysis.pulled_of_afterReply waits records.symm
    exact (occurs_snoc came).mpr (Or.inr ⟨⟨reply, volume, rfl, succeeds⟩, _, _, known⟩)

/-- The pull of every check that is recorded has succeeded. -/
theorem pulled_of_recorded (ran : run setup { shared } events = some state) :
    ∀ check ∈ recorded setup { shared } events,
      ∃ task, Occurs setup { shared } (Pulls task check) events := by
  refine run_induction ran nofun ?_
  intro before event state next came happens ih check member
  rw [recorded_snoc came happens] at member
  rcases List.mem_append.mp member with member | member
  · obtain ⟨task, pulled⟩ := ih check member
    exact ⟨task, pulled.append _⟩
  · obtain ⟨task, rfl, recording⟩ := State.recording?_eq_some (Option.mem_toList.mp member)
    exact ⟨task, (pulled_of_record came recording).append _⟩

/-- A check that consults the record goes on to a pull if the image is due. -/
theorem checking_pull_iff (consults : Consults task check state event)
    (happens : step setup state event = some next) :
    next.Checking task check .pull ↔
      check.isDue (state.shared.lastPull? check.key) = true := by
  obtain ⟨rfl, root, waiters, found⟩ := consults
  obtain ⟨volume, turned⟩ := Analysis.step_consult setup.analysis root task state.shared check
  cases stride_of_step happens found rfl with
  | turn acts =>
    cases due : check.isDue (state.shared.lastPull? check.key) with
    | true =>
      rw [due] at turned
      cases turned.symm.trans acts
      exact iff_of_true ⟨root, waiters, State.get?_become found _⟩ rfl
    | false =>
      rw [due] at turned
      cases turned.symm.trans acts
      refine iff_of_false ?_ nofun
      rintro ⟨home, others, pulls⟩
      cases (State.get?_become found _).symm.trans pulls

/-! ### A record in memory -/

/-- What a step makes of a record in memory. -/
theorem pulls_of_memory {pulls : List (String × Instant)}
    (happens : step setup state event = some next) (memory : state.shared.pulls = .memory pulls) :
    next.shared.pulls = .memory ((state.recording? event).elim pulls fun check =>
      (check.key, check.now) :: pulls.filter fun entry => entry.1 ≠ check.key) := by
  cases records : state.recording? event with
  | some check =>
    obtain ⟨task, rfl, root, waiters, found⟩ := State.recording?_eq_some records
    cases stride_of_step happens found rfl with
    | turn acts =>
      rw [Analysis.step_record, memory] at acts
      cases acts
      rfl
  | none =>
    have effect := effect_of_step happens
    generalize next.shared = after at effect ⊢
    cases effect with
    | turn found acts =>
      refine (Analysis.pulls_of_step acts ?_).trans memory
      rintro check rfl
      simp [State.recording?, found] at records
    | breakOff task =>
      rw [Option.elim_none, ← memory, Shared.releaseBy]
      split <;> rfl
    | _ => exact memory

/-- A record in memory keeps every time as it is. -/
theorem keeps_of_memory {pulls : List (String × Instant)} (memory : shared.pulls = .memory pulls)
    (events : List Event) : Keeps setup { shared } id events := by
  intro before event after state next split came happens
  obtain ⟨kept, holds⟩ : ∃ kept, state.shared.pulls = .memory kept := by
    refine run_induction came ⟨pulls, memory⟩ ?_
    rintro before event middle next - happens ⟨kept, holds⟩
    exact ⟨_, pulls_of_memory happens holds⟩
  rw [Shared.lastPull?_memory holds, Shared.lastPull?_memory (pulls_of_memory happens holds)]
  cases records : state.recording? event with
  | none => rfl
  | some check =>
    obtain ⟨task, -, root, waiters, found⟩ := State.recording?_eq_some records
    have known := Reachable.checks ⟨before, came⟩ _ _ _ _ found
    rw [Option.elim_some, Option.elim_some, known.1]
    exact List.lookup_cons_self

/-! ### Pulls and the record -/

/-- Two pulls lie a window apart, if the first is on record when the second one is asked for. Every
check that consults the record goes on to a pull if, and only if, the time on record is a window old
or there is none. Every pull that succeeds was asked for in this way: so the pull of each check that
was recorded before, and not under an older time since, was a window earlier, as its time was stored.
And only pulls that succeeded are recorded. -/
theorem one_pull_per_window_unless_off_record
    (ran : run setup { shared } events = some state) (keeps : Keeps setup { shared } stored events) :
    let window : Int := setup.analysis.runner.cacheMillis * Instant.perMilli
    (∀ asked event rest middle next task check, events = asked ++ event :: rest →
      run setup { shared } asked = some middle → step setup middle event = some next →
      Consults task check middle event →
        (next.Checking task check .pull ↔ ∀ last, onRecord setup { shared } stored asked = some last →
          last.nanos + window ≤ check.now.nanos)) ∧
    (∀ told event rest middle task check, events = told ++ event :: rest →
      run setup { shared } told = some middle → Pulls task check middle event →
        ∃ asked between before, told = asked ++ .step task :: between ∧
          run setup { shared } asked = some before ∧ Consults task check before (.step task) ∧
          ∀ older pulled newer, recorded setup { shared } asked = older ++ pulled :: newer →
            (∀ other ∈ newer, (stored pulled.now).nanos ≤ (stored other.now).nanos) →
              (stored pulled.now).nanos + window ≤ check.now.nanos) ∧
    ∀ check ∈ recorded setup { shared } events,
      ∃ task, Occurs setup { shared } (Pulls task check) events := by
  intro window
  have due : ∀ asked rest middle task check stage, events = asked ++ rest →
      run setup { shared } asked = some middle → middle.Checking task check stage →
      (check.isDue (middle.shared.lastPull? check.key) = true ↔
        ∀ last, onRecord setup { shared } stored asked = some last →
          last.nanos + window ≤ check.now.nanos) := by
    rintro asked rest middle task check stage rfl came ⟨root, waiters, found⟩
    obtain ⟨key, length⟩ := Reachable.checks ⟨asked, came⟩ _ _ _ _ found
    have kept : Keeps setup { shared } stored asked := fun first event later state next split =>
      keeps first event (later ++ rest) state next (by rw [split]; simp)
    rw [Image.Check.isDue_iff, key, kept.onRecord came, length]
  refine ⟨?_, ?_, pulled_of_recorded ran⟩
  · intro asked event rest middle next task check split came happens consults
    rw [checking_pull_iff consults happens]
    exact due asked _ middle task check _ split came consults.2
  · rintro told event rest middle task check rfl came ⟨-, pulling⟩
    obtain ⟨asked, between, before, rfl, cameBefore, consulting, wasDue⟩ :=
      consulted_of_pull came pulling
    refine ⟨asked, between, before, rfl, cameBefore, ⟨rfl, consulting⟩, ?_⟩
    intro older pulled newer split ordered
    rw [due asked (.step task :: between ++ event :: rest) before task check _ (by simp) cameBefore
      consulting] at wasDue
    obtain ⟨last, member, holds⟩ := exists_onRecord split
    have late := wasDue _ holds
    rcases List.mem_cons.mp member with rfl | member
    · exact late
    · have := ordered last member
      omega

/-! ### Two roots -/

/-- Two roots beside each other. -/
def twoRoots : Setup := { workspace := ⟨["/a", "/b"], [], false⟩, holdsSources := fun _ _ => false }

/-- The image is pulled for one root. When the window is over, the other root is to be analyzed. -/
def windowOver : List Event :=
  [.trigger "/a", .step 0, .step 0, .step 0, .step 0, .step 1, .step 1, .step 1, .step 1,
    .reply 1 (.ok {}) {}, .step 1, .clock ⟨86400000000000⟩,
    .trigger "/b", .step 2, .step 2, .step 2, .step 2, .step 3, .step 3, .step 3]

/-- The check under way in the work on a root, and where it stands. -/
def State.check? (state : State) (task : Nat) : Option (Image.Check × Image.Stage) :=
  match state.tasks.get? task with
  | some (.drive _ _ (.analyze (.container (.image check stage)))) => some (check, stage)
  | _ => none

theorem State.checking_of_check? {stage : Image.Stage} (seen : state.check? task = some (check, stage)) :
    state.Checking task check stage := by
  unfold check? at seen
  split at seen
  · next found =>
    cases seen
    exact ⟨_, _, found⟩
  · cases seen

theorem one_pull_per_window_unless_off_record_windowOver : ∃ state next,
    run twoRoots { shared := fresh } windowOver = some state ∧
    onRecord twoRoots { shared := fresh } id windowOver = some ⟨0⟩ ∧
    step twoRoots state (.step 3) = some next ∧
    next.Checking 3 ⟨"lastImagePull", ⟨86400000000000⟩, 86400000⟩ .pull := by
  have ready : (run twoRoots { shared := fresh } windowOver).bind (·.check? 3) =
      some (⟨"lastImagePull", ⟨86400000000000⟩, 86400000⟩, .consult) := by
    decide +kernel
  have goes : (run twoRoots { shared := fresh } (windowOver ++ [.step 3])).isSome = true := by
    decide +kernel
  have known : onRecord twoRoots { shared := fresh } id windowOver = some ⟨0⟩ := by
    have recorded : recorded twoRoots { shared := fresh } windowOver =
        [⟨"lastImagePull", ⟨0⟩, 86400000⟩] := by
      decide +kernel
    rw [onRecord, recorded]
    rfl
  obtain ⟨state, came, consults⟩ := Option.bind_eq_some_iff.mp ready
  obtain ⟨final, ran⟩ := Option.isSome_iff_exists.mp goes
  obtain ⟨middle, came', happens⟩ := of_run_snoc ran
  cases came.symm.trans came'
  obtain ⟨due, -, -⟩ := one_pull_per_window_unless_off_record ran (keeps_of_memory rfl _)
  refine ⟨state, final, came, known, happens, ?_⟩
  rw [due windowOver _ [] state final 3 _ rfl came happens
    ⟨rfl, State.checking_of_check? consults⟩, known]
  rintro last ⟨⟩
  decide

/-- A pull that succeeds in a row of events. -/
theorem occurs_pulls (told : List Event) {rest : List Event} {volume : Volume}
    (split : events = told ++ .reply task (.ok {}) volume :: rest)
    (waits : (run setup start told).bind (·.check? task) = some (check, .pull)) :
    Occurs setup start (Pulls task check) events := by
  obtain ⟨middle, ran, pulls⟩ := Option.bind_eq_some_iff.mp waits
  exact ⟨told, _, rest, middle, split, ran, ⟨_, volume, rfl, rfl⟩, State.checking_of_check? pulls⟩

/-- The analyses of both roots ask for a pull before either of them has recorded one. -/
def bothAsked : List Event :=
  [.trigger "/a", .step 0, .step 0, .step 0, .step 0, .trigger "/b", .step 2, .step 2, .step 2, .step 2,
    .step 1, .step 1, .step 1, .step 1, .step 3, .step 3, .step 3, .step 3,
    .reply 1 (.ok {}) {}, .reply 3 (.ok {}) {}, .step 1, .step 3]

/-- A root with a window of one millisecond, and the directories of its report. -/
def oneMilli : Setup :=
  { oneRoot with analysis := { runner := { cacheMillis := 1 } } }

/-- The directories of the report. -/
def unrecorded : Volume :=
  { disk := { tree := ⟨[(["a"], .directory), (["a", ".vscode"], .directory)]⟩ } }

/-- The same, and the record of a pull beside them. -/
def recordedAtZero : Volume :=
  { disk := { tree := ⟨[(["a"], .directory), (["a", ".vscode"], .directory),
    (["s.json"], .file (Text.encode "\x7b\n  \"lastImagePull\": 0\n\x7d") false)]⟩ } }

/-- One analysis after the other, a tenth of a millisecond later. The record is kept in a file, in
whole milliseconds. -/
def tenthLater : List Event :=
  [.trigger "/a", .step 0, .step 0, .step 0, .step 0, .step 1, .step 1, .step 1, .step 1,
    .reply 1 (.ok {}) unrecorded, .step 1, .reply 1 (.ok {}) recordedAtZero,
    .reply 1 (.ok {}) recordedAtZero,
    .step 1, .step 1, .step 1, .step 1, .step 1, .step 1, .step 1, .step 1, .clock ⟨1000000⟩,
    .trigger "/a", .step 2, .step 2, .step 2, .step 2, .step 3, .step 3, .step 3, .step 3,
    .reply 3 (.ok {}) recordedAtZero]

/-- Two pulls in one window: for two roots at the same time, each asked for before the other was on
record, and for one root a tenth of a millisecond apart, since the time of the first is stored in
whole milliseconds. -/
theorem two_pulls_in_one_window :
    (∃ check : Image.Check,
      Occurs twoRoots { shared := fresh } (Pulls 1 check) bothAsked ∧
      Occurs twoRoots { shared := fresh } (Pulls 3 check) bothAsked ∧
      Keeps twoRoots { shared := fresh } id bothAsked) ∧
    let start : State :=
      { shared := { volume := unrecorded, pulls := .file "/s.json", clock := ⟨900000⟩ } }
    Occurs oneMilli start (Pulls 1 ⟨"lastImagePull", ⟨900000⟩, 1⟩) tenthLater ∧
      Occurs oneMilli start (Pulls 3 ⟨"lastImagePull", ⟨1000000⟩, 1⟩) tenthLater := by
  refine ⟨⟨⟨"lastImagePull", ⟨0⟩, 86400000⟩, ?_, ?_, keeps_of_memory rfl _⟩, ?_, ?_⟩
  · exact occurs_pulls (bothAsked.take 18) rfl (by decide +kernel)
  · exact occurs_pulls (bothAsked.take 19) rfl (by decide +kernel)
  · exact occurs_pulls (tenthLater.take 9) rfl (by decide +kernel)
  · exact occurs_pulls (tenthLater.take 31) rfl (by decide +kernel)

end StyleMonitor.Coordinator
