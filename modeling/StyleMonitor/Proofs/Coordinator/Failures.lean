import StyleMonitor.Proofs.Coordinator.Endings
import StyleMonitor.Proofs.Coordinator.Notices

/-!
# Which analyses fail, and what the user is told

While analyses are enabled, an analysis fails if something happens that it gives up on, and
completes otherwise: the directory of the report cannot be made, the container's run does not end
well, or the report is there and cannot be read. The user is told of each failure once, and of
nothing else.
-/

namespace StyleMonitor.Coordinator

variable {setup : Setup} {shared : Shared} {start state final next : State} {event : Event}
  {events : List Event} {task : Nat} {root : String} {waiters : List Nat} {message : String}

/-- The moment at which something happens that an analysis gives up on. -/
def Troubles (setup : Setup) (task : Nat) (root : String) (waiters : List Nat) (state : State)
    (event : Event) : Prop :=
  (event = .step task ∧ ∃ analysis, analysis.Strikes setup.analysis root state.shared ∧
    state.tasks.get? task = some (.drive root waiters (.analyze analysis))) ∨
  ∃ reply volume, event = .reply task reply volume ∧ Analysis.succeeds reply = false ∧
    state.tasks.get? task = some (.drive root waiters (.analyze (.container .run)))

/-- Whether a state can come about and analyses are enabled in it. -/
def Enabled (setup : Setup) (shared : Shared) (state : State) : Prop :=
  Reachable setup { shared } state ∧ state.shared.enabled = true

/-! ### What the moments make of an analysis -/

theorem marks_troubles : Marks setup task root waiters (Enabled setup shared)
    (Troubles setup task root waiters) Analysis.Faulted where
  own holds := by
    rcases holds with ⟨rfl, analysis, strikes, found⟩ | ⟨reply, volume, rfl, _, found⟩
    · refine ⟨rfl, nofun, analysis, ?_, found⟩
      rintro outcome rfl
      exact strikes
    · exact ⟨rfl, nofun, .container .run, nofun, found⟩
  turn := by
    intro state analysis later after ⟨reached, on⟩ found acts
    rw [Analysis.faulted_of_step on (reached.regular _ _ _ _ found) acts]
    simp [Troubles, found]
  reply := by
    intro state analysis reply volume _ found waits
    rw [Analysis.faulted_afterReply waits]
    obtain ⟨stage, rfl⟩ := Analysis.exists_stage_of_command waits
    simp [Troubles, found, Analysis.Faulted, and_comm]

theorem marks_drops : Marks setup task root waiters (Enabled setup shared) (fun _ _ => False)
    Analysis.Dropped where
  own := False.elim
  turn := by
    intro state analysis later after ⟨_, on⟩ _ acts
    rw [Analysis.dropped_of_step on acts, or_false]
  reply := by
    intro state analysis reply volume _ _ waits
    obtain ⟨stage, rfl⟩ := Analysis.exists_stage_of_command waits
    exact iff_of_false (Analysis.not_dropped_ofStage _) (or_false _ |>.mp)

theorem marks_notifies (message : String) : Marks setup task root waiters
    (Reachable setup { shared }) (Notifies task root waiters message)
    (· = .ended (.failed message)) where
  own holds := by
    obtain ⟨rfl, found⟩ := holds
    exact ⟨rfl, by simp, .notify message, by simp, found⟩
  turn := by
    intro state analysis later after reached found acts
    rw [Analysis.failed_of_step (reached.regular _ _ _ _ found) acts]
    simp [Notifies, found]
  reply := by
    intro state analysis reply volume _ _ waits
    obtain ⟨stage, rfl⟩ := Analysis.exists_stage_of_command waits
    refine iff_of_false ?_ (by simp [Notifies])
    simp only [Analysis.afterReply, Analysis.ofStage]
    split <;> simp

theorem Throughout.of_reachable (reached : Reachable setup { shared } start)
    (all : Throughout setup start (fun state => state.shared.enabled = true) events) :
    Throughout setup start (Enabled setup shared) events :=
  fun before after middle equal came => ⟨reached.of_run came, all before after middle equal came⟩

/-! ### The outcome -/

section
variable {waiter : Nat} {outcome : Outcome}

/-- An analysis that has not broken off while analyses were enabled has failed if it met with
trouble, and has completed if it did not. -/
theorem outcome_of_troubles (reached : Reachable setup { shared } start)
    (begins : start.tasks.get? task = some (State.driveFrom root waiters))
    (ran : run setup start events = some final)
    (on : Throughout setup start (fun state => state.shared.enabled = true) events)
    (whole : ¬ Occurs setup start (BreaksOff task root waiters) events) (member : waiter ∈ waiters)
    (told : (waiter, outcome) ∈ final.answers) :
    ((∃ message, outcome = .failed message) ↔
      Occurs setup start (Troubles setup task root waiters) events) ∧
    ((∃ total, outcome = .completed total) ↔
      ¬ Occurs setup start (Troubles setup task root waiters) events) := by
  have reached' := reached.of_run ran
  have all := on.of_reachable reached
  have fate := fate_of_run reached begins marks_troubles id ran all
  have fate' := fate_of_run reached begins marks_drops id ran all
  have troubled := fate.of_told reached' member told
  have dropped := fate'.of_told reached' member told
  obtain ⟨_, troubled⟩ := troubled.resolve_right fun broken => whole broken.2.1
  obtain ⟨_, dropped⟩ := dropped.resolve_right fun broken => whole broken.2.1
  rw [← troubled]
  have kept : ¬ Analysis.Dropped (.ended outcome) := by
    rw [dropped]
    rintro ⟨_, _, _, _, _, _, no⟩
    exact no
  cases outcome with
  | completed | failed => simp [Analysis.Faulted]
  | skipped | cancelled => simp [Analysis.Dropped] at kept

/-- The triggers of an analysis are told of a failure if the user is told of it, and not
otherwise. -/
theorem failed_iff_notified {analysis : Analysis} (reached : Reachable setup { shared } start)
    (found : start.tasks.get? task = some (.drive root waiters (.analyze analysis)))
    (unended : analysis ≠ .ended (.failed message))
    (ran : run setup start events = some final) (member : waiter ∈ waiters)
    (told : (waiter, outcome) ∈ final.answers) : outcome = .failed message ↔
      Occurs setup start (Notifies task root waiters message) events := by
  have fate := fate_of_run reached found (marks_notifies message) unended ran
    fun _ _ _ _ came => reached.of_run came
  rcases fate.of_told (reached.of_run ran) member told with ⟨_, mark⟩ | ⟨rfl, _, _, unended, mark⟩
  · rw [← mark, Analysis.ended.injEq]
  · rw [← mark]
    exact iff_of_false nofun (unended _)

/-- The user is told of the failure of an analysis once. -/
theorem Notifies.first (reached : Reachable setup { shared } start)
    (begins : start.tasks.get? task = some (State.driveFrom root waiters))
    (ran : run setup start events = some final)
    (notifies : Notifies task root waiters message final event) (other : String) :
    ¬ Occurs setup start (Notifies task root waiters other) events := by
  have fate := fate_of_run reached begins (marks_notifies other) nofun ran
    fun _ _ _ _ came => reached.of_run came
  rw [← fate.of_aloft (reached.of_run ran) notifies.2]
  exact nofun

/-! ### The notices of an analysis -/

theorem notices_length_le_one (reached : Reachable setup { shared } start)
    (begins : start.tasks.get? task = some (State.driveFrom root waiters))
    (ran : run setup start events = some final) :
    ((notices setup start events).filter (Notice.Of task root waiters)).length ≤ 1 := by
  refine run_induction ran (Nat.zero_le 1) ?_
  intro before event middle next ran happens ih
  rw [notices_snoc ran, List.filter_append, List.length_append]
  cases told : notice? middle event with
  | none => exact ih
  | some notice =>
    by_cases own : notice.Of task root waiters
    · -- There was no such moment before.
      have none : (notices setup start before).filter (Notice.Of task root waiters) = [] := by
        refine List.filter_eq_nil_iff.mpr fun earlier member of => ?_
        obtain ⟨rfl, rfl, rfl⟩ := own
        obtain ⟨task, root, waiters⟩ := of_decide_eq_true of
        have occurs := (mem_notices ran).mp member
        rw [task, root, waiters] at occurs
        exact Notifies.first reached begins ran (notice?_eq_some.mp told) _ occurs
      rw [none, List.length_nil, Nat.zero_add]
      exact List.length_filter_le _ _
    · simpa [own] using ih

/-- The user is told of the failure of an analysis exactly once, with the text that its triggers are
told. -/
theorem notices_of_told (reached : Reachable setup { shared } start)
    (begins : start.tasks.get? task = some (State.driveFrom root waiters))
    (ran : run setup start events = some final) (member : waiter ∈ waiters)
    (told : (waiter, outcome) ∈ final.answers) :
    (∀ message, outcome = .failed message →
      (notices setup start events).filter (Notice.Of task root waiters) =
        [⟨task, root, waiters, message⟩]) ∧
    ((∀ message, outcome ≠ .failed message) →
      (notices setup start events).filter (Notice.Of task root waiters) = []) := by
  have notified (message : String) : outcome = .failed message ↔
      ⟨task, root, waiters, message⟩ ∈ notices setup start events := by
    rw [failed_iff_notified reached begins (fun same => by cases same) ran member told,
      mem_notices ran]
  constructor
  · intro message failed
    have listed : ⟨task, root, waiters, message⟩ ∈
        (notices setup start events).filter (Notice.Of task root waiters) :=
      List.mem_filter.mpr ⟨(notified message).mp failed, decide_eq_true ⟨rfl, rfl, rfl⟩⟩
    have one := Nat.le_antisymm (notices_length_le_one reached begins ran)
      (List.length_pos_of_mem listed)
    obtain ⟨notice, only⟩ := List.length_eq_one_iff.mp one
    rw [only] at listed ⊢
    rw [List.mem_singleton.mp listed]
  · intro completed
    refine List.filter_eq_nil_iff.mpr fun notice listed of => ?_
    obtain ⟨rfl, rfl, rfl⟩ := of_decide_eq_true of
    exact completed _ ((notified _).mpr listed)

/-- The user is told of analyses that serve some trigger and have failed, whichever they are. -/
theorem failed_of_mem_notices (reached : Reachable setup { shared } start)
    (ran : run setup start events = some final) {notice : Notice}
    (listed : notice ∈ notices setup start events) : notice.waiters ≠ [] ∧
      ∀ waiter ∈ notice.waiters, ∀ outcome, (waiter, outcome) ∈ final.answers →
        outcome = .failed notice.message := by
  obtain ⟨before, event, after, middle, rfl, came, notifies⟩ := (mem_notices ran).mp listed
  have reached' := reached.of_run came
  refine ⟨reached'.manned _ _ _ _ (Tasks.role?_of_get? notifies.2) nofun, ?_⟩
  intro waiter member outcome told
  rw [run_append, came, Option.bind_some] at ran
  exact (failed_iff_notified reached' notifies.2 nofun ran member told).mpr
    ⟨[], event, after, middle, rfl, rfl, notifies⟩

end

/-- The triggers of an analysis that begins in a state that can come about are answered in the end.
If analyses are enabled all the while and it does not break off, it fails if something happens that
it gives up on, and completes otherwise. The user sees the notices of failures and nothing else. If
the triggers of the analysis are told that it failed, there is one notice of it, with the same text,
and otherwise there is none; and every notice is of an analysis that has failed. -/
theorem fails_iff_troubled (reached : Reachable setup { shared } start)
    (free : shared.publisher = none)
    (begins : start.tasks.get? task = some (State.driveFrom root waiters)) :
    Inevitable setup task (Told waiters) start ∧
    ∀ events final, run setup start events = some final →
      (Throughout setup start (fun state => state.shared.enabled = true) events →
        ¬ Occurs setup start (BreaksOff task root waiters) events →
        ∀ waiter ∈ waiters, ∀ outcome, (waiter, outcome) ∈ final.answers →
        ((∃ message, outcome = .failed message) ↔
          Occurs setup start (Troubles setup task root waiters) events) ∧
        ((∃ total, outcome = .completed total) ↔
          ¬ Occurs setup start (Troubles setup task root waiters) events)) ∧
      final.shared.notes = start.shared.notes ++ (notices setup start events).map (fun notice =>
        "Coding style check failed: " ++ notice.message) ∧
      ((notices setup start events).filter (Notice.Of task root waiters)).length ≤ 1 ∧
      (∀ waiter ∈ waiters, ∀ outcome, (waiter, outcome) ∈ final.answers →
        (∀ message, outcome = .failed message →
          (notices setup start events).filter (Notice.Of task root waiters) =
            [⟨task, root, waiters, message⟩]) ∧
        ((∀ message, outcome ≠ .failed message) →
          (notices setup start events).filter (Notice.Of task root waiters) = [])) ∧
      ∀ notice ∈ notices setup start events, notice.waiters ≠ [] ∧
        ∀ waiter ∈ notice.waiters, ∀ outcome, (waiter, outcome) ∈ final.answers →
          outcome = .failed notice.message := by
  refine ⟨reached.inevitable free begins, fun events final ran =>
    ⟨?_, notes_of_run ran, notices_length_le_one reached begins ran, ?_, ?_⟩⟩
  · intro on whole waiter member outcome told
    exact outcome_of_troubles reached begins ran on whole member told
  · intro waiter member outcome told
    exact notices_of_told reached begins ran member told
  · intro notice listed
    exact failed_of_mem_notices reached ran listed

/-- The container's run ends badly and says this. The pull of the image has failed as well, but that
is no trouble. -/
def failing (stderr : String) : List Event :=
  [.step 1, .step 1, .step 1, .step 1, .reply 1 (.error .notText) {},
    .reply 1 (.ok { exit := .code 1, stderr }) {}, .step 1, .step 1, .step 1, .step 1]

/-- Two triggers arrive while a root is analyzed. That analysis fails, and the next one begins. -/
def beginning : List Event :=
  [.trigger "/a", .step 0, .step 0, .step 0, .step 0,
    .trigger "/a", .step 2, .step 2, .step 2, .step 2,
    .trigger "/a", .step 4, .step 4, .step 4, .step 4, .elapse 5, .step 5] ++
  failing "bang" ++ [.step 1]

/-- What all states of a row of events are like can be seen one part after the other. -/
theorem throughout_of_inits {origin : State} {earlier : List Event} (good : State → Bool)
    (came : run setup origin earlier = some start)
    (all : events.inits.all fun before => (run setup origin (earlier ++ before)).all good) :
    Throughout setup start (fun state => good state = true) events := by
  rintro before after middle rfl later
  have holds := List.all_eq_true.mp all before
    ((List.mem_inits _ _).mpr (List.prefix_append _ _))
  rwa [run_append, came, Option.bind_some, later] at holds

/-- The root that a task is about to analyze, and the triggers that the analysis serves. -/
def State.starting? (state : State) (task : Nat) : Option (String × List Nat) :=
  match state.tasks.get? task with
  | some (.drive root waiters (.analyze .start)) => some (root, waiters)
  | _ => none

theorem State.get?_of_starting? {task : Nat} {root : String} {waiters : List Nat}
    (seen : start.starting? task = some (root, waiters)) :
    start.tasks.get? task = some (State.driveFrom root waiters) := by
  unfold starting? at seen
  split at seen
  · next found =>
    cases seen
    exact found
  · cases seen

/-- An analysis that serves two triggers fails. -/
theorem fails_iff_troubled_failing : ∃ start final,
    run oneRoot { shared := fresh } beginning = some start ∧
    run oneRoot start (failing "boom") = some final ∧
    (1, .failed "container execution failed (exit code 1): boom") ∈ final.answers ∧
    (2, .failed "container execution failed (exit code 1): boom") ∈ final.answers ∧
    Occurs oneRoot start (Troubles oneRoot 1 "/a" [1, 2]) (failing "boom") ∧
    (notices oneRoot start (failing "boom")).filter (Notice.Of 1 "/a" [1, 2]) =
      [⟨1, "/a", [1, 2], "container execution failed (exit code 1): boom"⟩] ∧
    start.shared.notes =
      ["Coding style check failed: container execution failed (exit code 1): bang"] ∧
    final.shared.notes =
      ["Coding style check failed: container execution failed (exit code 1): bang",
        "Coding style check failed: container execution failed (exit code 1): boom"] := by
  have ran : (run oneRoot { shared := fresh } (beginning ++ failing "boom")).map State.answers =
      some [(0, .failed "container execution failed (exit code 1): bang"),
        (1, .failed "container execution failed (exit code 1): boom"),
        (2, .failed "container execution failed (exit code 1): boom")] := by
    decide +kernel
  obtain ⟨final, ran, answers⟩ := Option.map_eq_some_iff.mp ran
  rw [run_append] at ran
  obtain ⟨start, came, ran⟩ := Option.bind_eq_some_iff.mp ran
  have told : (1, .failed "container execution failed (exit code 1): boom") ∈ final.answers ∧
      (2, .failed "container execution failed (exit code 1): boom") ∈ final.answers := by
    simp [answers]
  have begins : start.tasks.get? 1 = some (State.driveFrom "/a" [1, 2]) := by
    have found : (run oneRoot { shared := fresh } beginning).bind (·.starting? 1) =
        some ("/a", [1, 2]) := by
      decide +kernel
    rw [came] at found
    exact State.get?_of_starting? found
  have noted : start.shared.notes =
      ["Coding style check failed: container execution failed (exit code 1): bang"] := by
    have found : (run oneRoot { shared := fresh } beginning).map (·.shared.notes) =
        some ["Coding style check failed: container execution failed (exit code 1): bang"] := by
      decide +kernel
    rw [came] at found
    exact Option.some.inj found
  have listed : notices oneRoot start (failing "boom") =
      [⟨1, "/a", [1, 2], "container execution failed (exit code 1): boom"⟩] := by
    have found : (run oneRoot { shared := fresh } beginning).map
        (notices oneRoot · (failing "boom")) =
        some [⟨1, "/a", [1, 2], "container execution failed (exit code 1): boom"⟩] := by
      decide +kernel
    rw [came] at found
    exact Option.some.inj found
  have whole : ¬ Occurs oneRoot start (BreaksOff 1 "/a" [1, 2]) (failing "boom") := by
    rintro ⟨before, _, after, _, equal, _, rfl, _⟩
    have breaks : Event.breakOff 1 ∈ failing "boom" := by
      rw [equal]
      exact List.mem_append_right _ List.mem_cons_self
    simp [failing] at breaks
  have on := throughout_of_inits (fun state => state.shared.enabled) came
    (by decide +kernel : (failing "boom").inits.all _)
  obtain ⟨_, outcomes⟩ := fails_iff_troubled ⟨beginning, came⟩ rfl begins
  obtain ⟨troubled, seen, -, once, -⟩ := outcomes (failing "boom") final ran
  refine ⟨start, final, came, ran, told.1, told.2, ?_, ?_, noted, ?_⟩
  · exact (troubled on whole 1 (by decide) _ told.1).1.mp ⟨_, rfl⟩
  · exact (once 2 (by decide) _ told.2).1 _ rfl
  · rw [seen, noted, listed]
    rfl

end StyleMonitor.Coordinator
