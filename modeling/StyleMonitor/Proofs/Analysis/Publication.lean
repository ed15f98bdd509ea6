import Mathlib.Data.List.Nodup
import Mathlib.Data.List.Pairwise
import StyleMonitor.Proofs.Analysis.Run
import StyleMonitor.Proofs.Report.Accounts

/-!
# How many findings of a run are shown

A run files the findings of a report by the path as it is written, and what is shown is held by
the path that it leads to. Where two spellings in a report lead to the same path, the findings of
one take the place of those of the other: so all findings are shown exactly if no two paths of the
report are spellings of one path.
-/

namespace StyleMonitor.Analysis

variable {setup : AnalysisSetup} {root : String} {task total : Nat} {shared final : Shared}
  {published : List (String × List Finding)} {before : Diagnostics}

/-- Whether two files of a report are at the same path. -/
def sameFile (root : String) (first second : String × List Finding) : Bool :=
  Path.same (Path.join root first.1) (Path.join root second.1)

theorem disposed_showing (shown : Diagnostics) (file : String × List Finding) :
    (showing root shown file).disposed = shown.disposed := by
  unfold showing Diagnostics.update
  split
  · rfl
  split <;> rfl

theorem disposed_foldl (before : Diagnostics) (published : List (String × List Finding)) :
    (published.foldl (showing root) before).disposed = before.disposed := by
  induction published generalizing before with
  | nil => rfl
  | cons file rest ih => rw [List.foldl_cons, ih, disposed_showing]

/-- Each path is shown what was published for it last. -/
theorem get?_foldl (root : String) (before : Diagnostics) (takes : before.disposed = false)
    (some : ∀ file ∈ published, file.2 ≠ []) (path : String) :
    (published.foldl (showing root) before).get? path =
      match published.reverse.find? fun file => Path.same (Path.join root file.1) path with
      | .some file => .some (file.2.map Diagnostic.ofFinding)
      | none => before.get? path := by
  induction published using List.reverseRecOn with
  | nil => rfl
  | append_singleton earlier last ih =>
    have takes : (earlier.foldl (showing root) before).disposed = false := by
      rw [disposed_foldl, takes]
    rw [List.foldl_append, List.foldl_cons, List.foldl_nil, showing,
      Diagnostics.get?_update takes (some last (by simp)), List.reverse_append,
      List.reverse_singleton, List.singleton_append, List.find?_cons,
      ih fun file member => some file (List.mem_append_left _ member)]
    cases Path.same (Path.join root last.1) path <;> rfl

/-- What is newly published adds its findings, unless something was shown there before. -/
theorem total_showing_foldl (root : String) {earlier : List (String × List Finding)}
    (some : ∀ file ∈ earlier, file.2 ≠ []) {last : String × List Finding} (new : last.2 ≠ []) :
    ((earlier ++ [last]).foldl (showing root) {}).total ≤
        (earlier.foldl (showing root) {}).total + last.2.length ∧
      (((earlier ++ [last]).foldl (showing root) {}).total =
        (earlier.foldl (showing root) {}).total + last.2.length ↔
        ∀ file ∈ earlier, sameFile root file last = false) := by
  have takes : (earlier.foldl (showing root) {}).disposed = false := disposed_foldl {} earlier
  have sum := Diagnostics.total_update takes new (Path.join root last.1)
  have found := get?_foldl root {} rfl some (Path.join root last.1)
  rw [List.foldl_append, List.foldl_cons, List.foldl_nil, showing]
  cases search : earlier.reverse.find? fun file =>
      Path.same (Path.join root file.1) (Path.join root last.1) with
  | none =>
    rw [search] at found
    have none : (earlier.foldl (showing root) {}).get? (Path.join root last.1) = none := found
    rw [none, Option.getD_none, List.length_nil] at sum
    refine ⟨Nat.le_of_eq sum, fun _ file member => ?_, fun _ => sum⟩
    simpa [sameFile] using List.find?_eq_none.mp search file (List.mem_reverse.mpr member)
  | some old =>
    rw [search] at found
    have member : old ∈ earlier := List.mem_reverse.mp (List.mem_of_find?_eq_some search)
    have same := List.find?_some search
    have held :
        0 < (((earlier.foldl (showing root) {}).get? (Path.join root last.1)).getD []).length := by
      rw [found, Option.getD_some, List.length_map]
      exact List.length_pos_iff.mpr (some old member)
    refine ⟨by omega, fun equal => by omega, fun apart => ?_⟩
    have not := apart old member
    rw [sameFile, same] at not
    cases not

/-- What is shown of files that were published one after the other. -/
theorem total_foldl (root : String) (some : ∀ file ∈ published, file.2 ≠ []) :
    (published.foldl (showing root) {}).total ≤ (published.flatMap fun file => file.2).length ∧
      ((published.foldl (showing root) {}).total = (published.flatMap fun file => file.2).length ↔
        published.Pairwise fun first second => sameFile root first second = false) := by
  induction published using List.reverseRecOn with
  | nil => simp [Diagnostics.total]
  | append_singleton earlier last ih =>
    obtain ⟨le, equal⟩ := ih fun file member => some file (List.mem_append_left _ member)
    obtain ⟨adds, all⟩ := total_showing_foldl root
      (fun file member => some file (List.mem_append_left _ member)) (some last (by simp))
    rw [List.flatMap_append, List.length_append, List.flatMap_singleton, List.pairwise_append]
    refine ⟨by omega, ?_⟩
    constructor
    · intro whole
      have first := equal.mp (by omega)
      have second := all.mp (by omega)
      exact ⟨first, List.pairwise_singleton _ _, by simpa using second⟩
    · rintro ⟨first, _, second⟩
      have first := equal.mpr first
      have second := all.mpr (by simpa using second)
      omega

/-! ### Findings of a report -/

theorem some_of_reported {findings : FileFindings} (reported : Reported findings)
    {file : String × List Finding} (member : file ∈ findings.files) : file.2 ≠ [] := by
  obtain ⟨exclusions, text, rfl⟩ := reported
  have accounts := Report.parse_accounts exclusions text
  intro empty
  refine accounts.some_of_listed file.1 (accounts.distinct.get?_eq_some_iff.mpr ?_)
  rw [← empty]
  exact member

theorem nodup_of_reported {findings : FileFindings} (reported : Reported findings) :
    findings.files.Nodup := by
  obtain ⟨exclusions, text, rfl⟩ := reported
  exact List.Nodup.of_map _ (Report.parse_accounts exclusions text).distinct

theorem sameFile_comm (first second : String × List Finding) :
    sameFile root first second = sameFile root second first :=
  Path.same_comm _ _

instance : Std.Symm fun first second => sameFile root first second = false where
  symm first second apart := (sameFile_comm second first).trans apart

/-- Files that are published in some order are at different paths, each two of them, if no two
files that were found are spellings of one path. -/
theorem pairwise_apart_iff (root : String) {files : List (String × List Finding)}
    (order : published.Perm files) (once : files.Nodup) :
    (published.Pairwise fun first second => sameFile root first second = false) ↔
      ∀ first ∈ files, ∀ second ∈ files, sameFile root first second = true → first = second := by
  rw [order.pairwise_iff fun {first second} => Std.Symm.symm first second]
  constructor
  · intro apart first here second there same
    by_contra differ
    have not := apart.forall here there differ
    rw [same] at not
    cases not
  · intro apart
    refine List.Nodup.pairwise_of_forall_ne once ?_
    intro first here second there differ
    by_contra same
    exact differ (apart first here second there (by simpa using same))

/-- A run that completes tells the number of all findings of its report. Each path is shown the
findings that were published for it last, each on a line of its own; so as many findings are shown
as were told exactly if no two files of the report are spellings of one path. -/
theorem total_eq_iff_paths_apart
    (run : Run setup root task start shared published (.completed total) final)
    (fresh : shared.shown = {}) :
    ∃ exclusions text, published.Perm (Report.findings exclusions text).files ∧
      (Report.findings exclusions text).totalCount = total ∧
      (∀ path, final.shown.get? path =
        (published.reverse.find? fun file => Path.same (Path.join root file.1) path).map
          fun file => file.2.map Diagnostic.ofFinding) ∧
      (final.shown.lines root).length = final.shown.total ∧ final.shown.total ≤ total ∧
      (final.shown.total = total ↔
        ∀ first ∈ (Report.findings exclusions text).files,
          ∀ second ∈ (Report.findings exclusions text).files,
            sameFile root first second = true → first = second) := by
  obtain ⟨-, ⟨before, kept, sub, -, shown⟩, whole⟩ :=
    run.makes_of_start fun _ => by rw [fresh]
  rcases whole with ⟨_, failed⟩ | ⟨findings, reported, order, told⟩
  · cases failed
  obtain rfl : before = {} := by
    rw [fresh] at kept sub
    obtain ⟨files, disposed⟩ := before
    cases List.sublist_nil.mp sub
    cases kept
    rfl
  have some : ∀ file ∈ published, file.2 ≠ [] := fun file member =>
    some_of_reported reported (order.mem_iff.mp member)
  have count : (published.flatMap fun file => file.2).length = total := by
    cases told
    exact (order.flatMap_right _).length_eq
  have apart := pairwise_apart_iff root order (nodup_of_reported reported)
  obtain ⟨le, equal⟩ := total_foldl root some
  obtain ⟨exclusions, text, rfl⟩ := reported
  refine ⟨exclusions, text, order, ?_, ?_, Diagnostics.length_lines _ _, ?_, ?_⟩
  · cases told
    rfl
  · intro path
    rw [shown, get?_foldl root {} rfl some]
    cases published.reverse.find? fun file => Path.same (Path.join root file.1) path <;> rfl
  · rw [shown, ← count]
    exact le
  · rw [shown, ← apart, ← count]
    exact equal

/-! ### Runs on one root -/

/-- A root with a directory for its report. -/
def rooted : Volume :=
  ⟨⟨⟨[(["w"], .directory), (["w", ".vscode"], .directory)]⟩, []⟩, []⟩

/-- The same root with a report of this content. -/
def written (content : Bytes) : Volume :=
  ⟨⟨⟨[(["w"], .directory), (["w", ".vscode"], .directory),
    (["w", ".vscode", "coding-style-reports.log"], .file content false)]⟩, []⟩, []⟩

/-- Where runs start: the image was pulled just now, and this is shown. -/
def starting (shown : Diagnostics) : Shared :=
  { shown, volume := rooted, pulls := .memory [("lastImagePull", ⟨0⟩)], clock := ⟨0⟩ }

theorem Run.of_starting {shown : Diagnostics}
    (run : Run {} "/w" task (container .run) (starting (shown.clearTarget "/w"))
      published outcome final) :
    Run {} "/w" task start (starting shown) published outcome final := by
  have job : Container.Job.on {} "/w" = ⟨"/w", "/w/.vscode"⟩ := by decide +kernel
  have path : Path.join "/w/.vscode" "coding-style-reports.log" =
      "/w/.vscode/coding-style-reports.log" := by decide +kernel
  have made : Session.makeDirectories "/w/.vscode" rooted = (.ok (), rooted) := rfl
  have gone : Session.remove "/w/.vscode/coding-style-reports.log" rooted =
      (.error (.refused .notFound), rooted) := rfl
  have prepared : Container.Stage.act {} ⟨"/w", "/w/.vscode"⟩ ⟨0⟩ (starting shown).pulls .prepare
      rooted = (.ok ((starting shown).pulls, .image ⟨"lastImagePull", ⟨0⟩, 86400000⟩ .consult),
        rooted) := by
    rw [Container.Stage.act, Session.bind_apply, Session.attempt_apply, made]
    simp only [Session.ignoring, Session.bind_apply, Session.attempt_apply, path, gone]
    rfl
  rw [← job] at prepared
  exact .step rfl (.step rfl (.step (step_of_act rfl prepared)
    (.step (step_of_act rfl (show _ = (Except.ok _, rooted) from rfl)) run)))

theorem read_written (content : Bytes) :
    (written content).disk.read "/w/.vscode/coding-style-reports.log" = .ok content := by
  have parts : Disk.names "/w/.vscode/coding-style-reports.log" =
      ["w", ".vscode", "coding-style-reports.log"] := by decide +kernel
  have text : ¬ '\x00' ∈ "/w/.vscode/coding-style-reports.log".toList := by decide +kernel
  have size : ¬ Disk.pathLimit ≤ Text.size "/w/.vscode/coding-style-reports.log" := by
    decide +kernel
  have absolute : Path.isAbsolute "/w/.vscode/coding-style-reports.log" = true := by
    decide +kernel
  rw [Disk.read, Disk.status, Disk.spot, if_neg text, if_neg (by decide), if_neg size, absolute,
    parts]
  rfl

theorem readReport_written (text : String) :
    readReport {} "/w" "/w/.vscode/coding-style-reports.log" (written (Text.encode text)) =
      (.ok (.ok (Report.findings .empty text)), written (Text.encode text)) := by
  have rules : Exclusions.load "/w" ".gitignore" (written (Text.encode text)) =
      (.ok .empty, written (Text.encode text)) := by
    have path : Path.join "/w" ".gitignore" = "/w/.gitignore" := by decide +kernel
    have none : Session.readText "/w/.gitignore" (written (Text.encode text)) =
        (.error (.refused .notFound), written (Text.encode text)) := rfl
    rw [Exclusions.load, path, Session.bind_apply, Session.attempt_apply, none]
    rfl
  have bytes : Session.read "/w/.vscode/coding-style-reports.log" (written (Text.encode text)) =
      (.ok (Text.encode text), written (Text.encode text)) := by
    simp only [Session.read, Session.ask, Session.call]
    rw [read_written]
    rfl
  refine readReport_of_readText rules ?_
  rw [Session.readText, Session.bind_ok bytes, Text.decode?_encode]
  rfl

/-- A run whose container leaves this report behind. -/
theorem run_of_text (task : Nat) (text : String) (shown : Diagnostics) :
    Run {} "/w" task start (starting shown) (Report.findings .empty text).files
      (.completed (Report.findings .empty text).totalCount)
      { starting shown with
        volume := written (Text.encode text)
        shown := (Report.findings .empty text).files.foldl (showing "/w")
          (shown.clearTarget "/w") } := by
  have path : Container.reportPath {} "/" (.on {} "/w") =
      "/w/.vscode/coding-style-reports.log" := by decide +kernel
  have read := readReport_written text
  rw [← path] at read
  exact .of_starting (.of_container {} "/w" task rfl rfl read)

theorem total_eq_iff_paths_apart_twoFiles :
    ∃ published final, Run {} "/w" 0 start (starting {}) published (.completed 2) final ∧
      (starting {}).shown = {} ∧ final.shown.total = 2 ∧ (final.shown.lines "/w").length = 2 := by
  have run := run_of_text 0 "a.c:1:MAJOR:C-F3:x\nb.c:1:MAJOR:C-F3:y\n" {}
  obtain ⟨exclusions, text, order, -, -, lines, -, all⟩ := total_eq_iff_paths_apart run rfl
  refine ⟨_, _, run, rfl, ?_⟩
  rw [lines]
  suffices whole : _ from ⟨whole, whole⟩
  refine all.mpr ?_
  simp only [← order.mem_iff]
  decide +kernel

/-- A report that spells a path in two ways: two findings are told, and one is shown. -/
theorem total_lt_of_two_spellings :
    ∃ published final, Run {} "/w" 0 start (starting {}) published (.completed 2) final ∧
      (starting {}).shown = {} ∧ final.shown.total = 1 ∧ (final.shown.lines "/w").length = 1 := by
  have run := run_of_text 0 "a.c:1:MAJOR:C-F3:x\n././a.c:1:MAJOR:C-F3:y\n" {}
  refine ⟨_, _, run, rfl, ?_⟩
  rw [Diagnostics.length_lines]
  decide +kernel

end StyleMonitor.Analysis
