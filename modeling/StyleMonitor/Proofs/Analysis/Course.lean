import StyleMonitor.Proofs.Analysis.Publication

/-!
# Runs on a root, one after the other

Each run clears what is shown of its root before it publishes. What a run publishes stands below
the root unless the report names it by an absolute path; so what was published before the last run
is shown no longer, but for files that stand elsewhere.
-/

namespace StyleMonitor.Analysis

variable {setup : AnalysisSetup} {root : String} {shared first last : Shared}
  {published : List (String × List Finding)}

/-- Runs on a root from first to last, each with what it published and its outcome, and with the
work of others between them. -/
inductive Course (setup : AnalysisSetup) (root : String) (first : Shared) :
    List (List (String × List Finding) × Outcome) → Shared → Prop where
  | none : Course setup root first [] first
  | around {runs : List (List (String × List Finding) × Outcome)} {shared other : Shared}
    (earlier : Course setup root first runs shared) (change : shared.Around other) :
    Course setup root first runs other
  | run {runs : List (List (String × List Finding) × Outcome)} {shared final : Shared} {task : Nat}
    {published : List (String × List Finding)} {outcome : Outcome}
    (earlier : Course setup root first runs shared)
    (run : Run setup root task start shared published outcome final) :
    Course setup root first (runs ++ [(published, outcome)]) final

variable {runs : List (List (String × List Finding) × Outcome)}

/-- Nothing is shown while analyses are disabled. -/
theorem Course.quiet (course : Course setup root first runs last)
    (quiet : first.enabled = false → first.shown.files = []) :
    last.enabled = false → last.shown.files = [] := by
  induction course with
  | none => exact quiet
  | around earlier change ih => exact change.quiet ih
  | run earlier run ih => exact (run.makes_of_start ih).quiet

/-- What is shown after files were published was shown before, or it is at the path of one of
them. -/
theorem mem_showing_foldl {before : Diagnostics} {entry : String × List Diagnostic}
    (member : entry ∈ (published.foldl (showing root) before).files) :
    (∃ list, (entry.1, list) ∈ before.files) ∨
      ∃ file ∈ published, entry.1 = Path.join root file.1 := by
  induction published using List.reverseRecOn generalizing entry with
  | nil => exact Or.inl ⟨entry.2, member⟩
  | append_singleton earlier last ih =>
    rw [List.foldl_append, List.foldl_cons, List.foldl_nil] at member
    rcases Diagnostics.mem_update member with ⟨list, old⟩ | new
    · rcases ih old with kept | ⟨file, there, same⟩
      · exact Or.inl kept
      · exact Or.inr ⟨file, List.mem_append_left _ there, same⟩
    · exact Or.inr ⟨last, by simp, new⟩

/-- A file that some run published stands below the root, or the report gave it an absolute
path. -/
theorem isWithin_or_isAbsolute (root : String) (file : String × List Finding) :
    Path.isWithin (Path.join root file.1) root = true ∨ Path.isAbsolute file.1 = true := by
  cases absolute : Path.isAbsolute file.1 with
  | true => exact Or.inr rfl
  | false => exact Or.inl (Path.isWithin_join absolute)

/-- An entry of the last run, or one that stands elsewhere and that some run published by an
absolute path. -/
def Accounted (root : String) (runs : List (List (String × List Finding) × Outcome))
    (path : String) : Prop :=
  (∃ run, runs.getLast? = some run ∧ ∃ file ∈ run.1, path = Path.join root file.1) ∨
    Path.isWithin path root = false ∧
      ∃ run ∈ runs, ∃ file ∈ run.1, Path.isAbsolute file.1 = true ∧ path = file.1

/-- What stands outside the root was published by an absolute path. -/
theorem Accounted.elsewhere {path : String} (accounted : Accounted root runs path)
    (outside : Path.isWithin path root = false) (next : List (String × List Finding) × Outcome) :
    Accounted root (runs ++ [next]) path := by
  refine Or.inr ⟨outside, ?_⟩
  rcases accounted with ⟨run, found, file, member, rfl⟩ | ⟨-, run, listed, file, member, found⟩
  · rcases isWithin_or_isAbsolute root file with within | absolute
    · rw [within] at outside
      cases outside
    · refine ⟨run, List.mem_append_left _ (List.mem_of_getLast? found), file, member, absolute, ?_⟩
      exact Path.join_of_isAbsolute absolute
  · exact ⟨run, List.mem_append_left _ listed, file, member, found⟩

/-- All that is shown after some runs is accounted for. -/
theorem Course.accounted (course : Course setup root first runs last)
    (fresh : first.shown.files = []) :
    ∀ entry ∈ last.shown.files, Accounted root runs entry.1 := by
  induction course with
  | none =>
    rw [fresh]
    nofun
  | around earlier change ih =>
    intro entry member
    exact ih entry (change.shown_sublist.mem member)
  | @run runs shared final task published outcome earlier run ih =>
    intro entry member
    obtain ⟨-, ⟨before, -, sub, outside, shown⟩, -⟩ :=
      run.makes_of_start (earlier.quiet fun _ => fresh)
    rw [shown] at member
    rcases mem_showing_foldl member with ⟨list, old⟩ | ⟨file, there, same⟩
    · exact (ih _ (sub.mem old)).elsewhere (outside _ old) _
    · exact Or.inl ⟨_, List.getLast?_concat, file, there, same⟩

/-- Runs publish whole reports or nothing. -/
theorem Course.whole (course : Course setup root first runs last)
    (fresh : first.shown.files = []) :
    ∀ run ∈ runs, (run.1 = [] ∧ run.2.isCompleted = false) ∨
      ∃ exclusions text, run.1.Perm (Report.findings exclusions text).files ∧
        run.2 = .completed (Report.findings exclusions text).totalCount := by
  induction course with
  | none => nofun
  | around earlier change ih => exact ih
  | run earlier run ih =>
    intro other member
    rcases List.mem_append.mp member with old | new
    · exact ih other old
    · cases List.mem_singleton.mp new
      rcases (run.makes_of_start (earlier.quiet fun _ => fresh)).whole with
        none | ⟨_, ⟨exclusions, text, rfl⟩, order, completed⟩
      · exact Or.inl none
      · exact Or.inr ⟨exclusions, text, order, completed⟩

/-- After runs on a root from which nothing was shown, what is shown was published by the last of
them, or it stands outside the root and some run published it by an absolute path. So where the
reports name no absolute path, all that is shown is of the last run, and nothing is shown if that
did not complete. -/
theorem shown_of_last_run_unless_absolute (course : Course setup root first runs last)
    (fresh : first.shown.files = []) :
    (∀ run ∈ runs, (run.1 = [] ∧ run.2.isCompleted = false) ∨
      ∃ exclusions text, run.1.Perm (Report.findings exclusions text).files ∧
        run.2 = .completed (Report.findings exclusions text).totalCount) ∧
    (∀ run ∈ runs, ∀ file ∈ run.1,
      Path.isWithin (Path.join root file.1) root = true ∨ Path.isAbsolute file.1 = true) ∧
    (∀ entry ∈ last.shown.files, Accounted root runs entry.1) ∧
    ((∀ run ∈ runs, ∀ file ∈ run.1, Path.isAbsolute file.1 = false) →
      (∀ entry ∈ last.shown.files, ∃ run, runs.getLast? = some run ∧
        ∃ file ∈ run.1, entry.1 = Path.join root file.1) ∧
      ∀ run, runs.getLast? = some run → run.2.isCompleted = false → last.shown.files = []) := by
  have whole := course.whole fresh
  have accounted := course.accounted fresh
  refine ⟨whole, fun run _ file _ => isWithin_or_isAbsolute root file, accounted, ?_⟩
  intro relative
  have recent : ∀ entry ∈ last.shown.files, ∃ run, runs.getLast? = some run ∧
      ∃ file ∈ run.1, entry.1 = Path.join root file.1 := by
    intro entry member
    rcases accounted entry member with found | ⟨-, run, listed, file, there, absolute, -⟩
    · exact found
    · rw [relative run listed file there] at absolute
      cases absolute
  refine ⟨recent, ?_⟩
  intro run final failed
  rw [List.eq_nil_iff_forall_not_mem]
  intro entry member
  obtain ⟨other, same, file, there, -⟩ := recent entry member
  cases final.symm.trans same
  rcases whole run (List.mem_of_getLast? final) with ⟨none, -⟩ | ⟨_, _, -, completed⟩
  · rw [none] at there
    cases there
  · rw [completed] at failed
    cases failed

/-- A run that completes with this report, and then one whose container ends badly. -/
theorem course_of_text_then_fault (text : String) :
    ∃ message, Course {} "/w" (starting {})
      [((Report.findings .empty text).files,
        .completed (Report.findings .empty text).totalCount), ([], .failed message)]
      { starting (Diagnostics.clearTarget
          ((Report.findings .empty text).files.foldl (showing "/w") {}) "/w") with
        notes := [noteText message] } := by
  have one := run_of_text 0 text {}
  have two : Run {} "/w" 1 start (starting ((Report.findings .empty text).files.foldl
      (showing "/w") {})) [] (.failed _) _ :=
    .of_starting (.reply (.ok { exit := .code 1 }) rooted rfl (.step rfl (.step rfl .ended)))
  exact ⟨_, .run (.around (.run .none one) (.elsewhere rooted (starting {}).pulls [] ⟨0⟩)) two⟩

theorem shown_of_last_run_unless_absolute_relative :
    ∃ published message last, Course {} "/w" (starting {})
        [(published, .completed 1), ([], .failed message)] last ∧
      (starting {}).shown.files = [] ∧
      (∀ file ∈ published, Path.isAbsolute file.1 = false) ∧ last.shown.files = [] := by
  obtain ⟨message, course⟩ := course_of_text_then_fault "./src/x.c:1:MAJOR:C-F3:x\n"
  obtain ⟨-, -, -, relative⟩ := shown_of_last_run_unless_absolute course rfl
  have plain : ∀ file ∈ (Report.findings .empty "./src/x.c:1:MAJOR:C-F3:x\n").files,
      Path.isAbsolute file.1 = false := by decide +kernel
  refine ⟨_, message, _, course, rfl, plain, ?_⟩
  refine (relative ?_).2 _ rfl rfl
  rintro run (_ | ⟨_, _ | ⟨_, ⟨⟩⟩⟩)
  · exact plain
  · nofun

/-- A report line that starts with `.//` names an absolute path. What a run publishes for it is
still shown when the next run on the root has failed. -/
theorem shown_after_failure_of_absolute :
    ∃ message last, Course {} "/w" (starting {})
        [((Report.findings .empty ".//src/x.c:1:MAJOR:C-F3:x\n").files, .completed 1),
          ([], .failed message)] last ∧
      (starting {}).shown = {} ∧ last.shown.files.map (·.1) = ["/src/x.c"] := by
  obtain ⟨message, course⟩ := course_of_text_then_fault ".//src/x.c:1:MAJOR:C-F3:x\n"
  have kept : (Diagnostics.clearTarget ((Report.findings .empty
      ".//src/x.c:1:MAJOR:C-F3:x\n").files.foldl (showing "/w") {}) "/w").files.map (·.1) =
      ["/src/x.c"] := by decide +kernel
  exact ⟨message, _, course, rfl, kept⟩

end StyleMonitor.Analysis
